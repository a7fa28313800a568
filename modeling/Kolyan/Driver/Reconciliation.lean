/-
# Reconciliation of an uncertain effect

`reconcile_tool_effect` (`kolyan-runtime/src/reconciliation.rs`).  A trusted
adapter inspects whether an effect that has started and has no receipt was
committed; what it says is saved as the decision of the request that asked, and a
committed result as the receipt of the effect as well, in two appends.  A request
that was answered is answered the same from then on, out of the ledger alone
(`reconciliation_idempotent`), unless it was told that the effect is not known to
be committed and a receipt has come since: then the request is refused
(`not_reconciliation_idempotent`).
-/

import Kolyan.Driver.Receipts
import Kolyan.Driver.Runs
import Kolyan.Execution.Refusals
import Kolyan.Ledger.Calls
import Kolyan.Lib.Cuts

namespace Kolyan
namespace Driver

open Checks Threads Fallible Ledger Policy Turn

section Model

/-- What `ToolEffectReconciler::inspect` is asked. -/
structure Inspection where
  request : ReconciliationRequest
  prepared : EffectRequest
  authorization : EffectGrant

/-- What it answers. -/
@[reducible] def Inspection.Answer (_ : Inspection) : Type := Except RuntimeError ReconciliationResolution

/-- Programs on a ledger and an inspector. -/
abbrev ReconcilerProg := Fallible (Op Inspection) (Op.Answer Inspection.Answer) RuntimeError

variable {α : Type}

/-- `ToolEffectReconciler::inspect`. -/
def inspect (inspection : Inspection) : ReconcilerProg ReconciliationResolution :=
  Fallible.ofProg (.ask (.host inspection) .done)

/-- A ledger call; its error converts. -/
def reconcilerCall (p : LedgerProg Inspection.Answer α) : ReconcilerProg α := Fallible.mapError .ledger p

variable (codec : DriverCodec) (request : ReconciliationRequest)

/-- `validate_request`. -/
def ReconciliationRequest.validate : Except RuntimeError Unit := do
  reject ([request.reconciliationId, request.execution.sessionId, request.execution.executionId,
      request.execution.turnId].any fun id => !isReconciliationId id)
    (.driver "invalid reconciliation identity")
  reject (request.effectId.isEmpty ∨ request.effectId.utf8ByteSize > 1281 ∨ request.effectId.toList.any isControl)
    (.driver "invalid reconciliation effect identity")

/-- The id of the effect's facts, up to their last part. -/
def ReconciliationRequest.root : String := request.execution.executionId ++ "/effect/" ++ request.effectId

/-- The id of the request's decision. -/
def ReconciliationRequest.decisionId : String := request.root ++ "/reconciliation/" ++ request.reconciliationId

/-- `required`. -/
def required (id : String) (kind : LedgerEventKind) : ReconcilerProg LedgerEvent := do
  let found ← reconcilerCall (eventById id)
  let event ← Fallible.lift (expect found (.driver ("missing fact " ++ id)))
  Fallible.lift (invalid ToolError.toString (checkEvent event request.execution id kind))
  return event

/-- The evidence of the effect, which has to have started. -/
def startedEvidence : ReconcilerProg PreparedEvidence := do
  let identity ← required request (request.execution.executionId ++ "/execution-started") .executionStarted
  Fallible.lift (reject (identity.payload ≠ request.execution.toValue) (.driver "execution binding differs"))
  let prepared ← required request (request.root ++ "/prepared") .effectPrepared
  let authorized ← required request (request.root ++ "/authorized") .effectAuthorized
  let bound ← Fallible.lift (invalid ToolError.toString
    (fromFacts codec request.execution request.effectId prepared.payload authorized.payload))
  let started ← required request (request.root ++ "/started") .effectStarted
  Fallible.lift (reject (started.payload ≠ bound.startedPayload)
    (.driver "started effect evidence binding differs"))
  return bound

/-- The output of a receipt, which has to be the one of a success. -/
def committedOutput (bound : PreparedEvidence) (event : LedgerEvent) (message : String) :
    Except RuntimeError ToolResult := do
  let outcome ← invalid ToolError.toString (bound.validateReceipt codec.evidence event.payload)
  mapError (fun _ => .driver message) outcome

/-- The receipt that the effect has by now. -/
def savedReceipt (bound : PreparedEvidence) : ReconcilerProg (Option LedgerEvent) := do
  match ← reconcilerCall (eventById (request.root ++ "/receipt")) with
  | none => return none
  | some event => do
      Fallible.lift (invalid ToolError.toString
        (checkEvent event request.execution (request.root ++ "/receipt") .effectReceipt))
      let _ ← Fallible.lift (committedOutput codec bound event
        "failed receipt is not a committed reconciliation")
      return some event

/-- `decision_payload`. -/
def decisionPayload (resolution : ReconciliationResolution) (bound : PreparedEvidence) : Value :=
  .object [("request", request.toValue), ("resolution", resolution.toValue),
    ("input_digest", .string bound.request.inputDigest),
    ("authorization_digest", .string bound.authorization.constraintsDigest), ("scope", bound.scope.toValue)]

/-- `validate_decision_receipt`. -/
def validateDecisionReceipt (bound : PreparedEvidence) (receipt : Option LedgerEvent) :
    ReconciliationResolution → Except RuntimeError Unit
  | .committed output executorId executorRevision evidence => do
      let event ← expect receipt (.driver "committed decision has no receipt")
      let actual ← committedOutput codec bound event "committed decision has a failed receipt"
      reject (actual ≠ output ∨ field "reconciliation" event.payload ≠
          reconciliation request (.committed output executorId executorRevision evidence))
        (.driver "decision and committed receipt proof differ")
  | .notCommitted _ | .unknown _ =>
      reject (receipt.isSome = true) (.driver "noncommitted decision conflicts with a receipt")

/-- A decision that was saved, against the receipt of now. -/
def replayDecision (bound : PreparedEvidence) (receipt : Option LedgerEvent) (decision : LedgerEvent) :
    Except RuntimeError ReconciliationResolution := do
  invalid ToolError.toString (checkEvent decision request.execution request.decisionId .effectReconciled)
  let resolution ← invalid id (codec.evidence.resolution (field "resolution" decision.payload))
  invalid ToolError.toString (bound.validateResolution request resolution)
  reject (decision.payload ≠ decisionPayload request resolution bound)
    (.driver "reconciliation decision binding differs")
  validateDecisionReceipt codec request bound receipt resolution
  return resolution

/-- `append_identical`. -/
def appendIdentical (id : String) (kind : LedgerEventKind) (payload : Value) : ReconcilerProg Unit := do
  let event := identified request.execution id kind payload
  match ← Fallible.attempt (Ledger.append event) with
  | .ok _ => return ()
  | .error (.conflict _) => do
      let found ← reconcilerCall (eventById id)
      let actual ← Fallible.lift (expect found (.driver "conflicting fact unavailable"))
      Fallible.lift (reject ({ actual with cursor := 0 } ≠ event) (.driver "conflicting reconciliation evidence"))
  | .error error => throw (.ledger error)

/-- What a request is told that has not committed the receipt itself. -/
def observedReceipt (bound : PreparedEvidence) (event : LedgerEvent) (output : ToolResult) :
    ReconciliationResolution :=
  .committed output bound.executorId bound.prepared.toolRevision ("durable receipt " ++ event.eventId)

/-- A request without a decision, of an effect with a receipt. -/
def answerFromReceipt (bound : PreparedEvidence) (event : LedgerEvent) :
    ReconcilerProg ReconciliationResolution := do
  let output ← Fallible.lift (committedOutput codec bound event
    "failed receipt is not a committed reconciliation")
  match field? "reconciliation" event.payload with
  | none => return observedReceipt bound event output
  | some metadata => do
      let saved ← Fallible.lift (invalid id (codec.evidence.request (field "request" metadata)))
      let resolution ← Fallible.lift (invalid id (codec.evidence.resolution (field "resolution" metadata)))
      if saved = request then do
        appendIdentical request request.decisionId .effectReconciled (decisionPayload request resolution bound)
        return resolution
      else return observedReceipt bound event output

/-- The receipt of a result that the inspector has found committed. -/
def commitReceipt (bound : PreparedEvidence) (resolution : ReconciliationResolution) : ReconcilerProg Unit :=
  match resolution with
  | .committed output _ _ _ => do
      let payload ← Fallible.lift (invalid ToolError.toString (bound.receiptPayload codec.evidence (.ok output)))
      appendIdentical request (request.root ++ "/receipt") .effectReceipt
        (withField "reconciliation" (reconciliation request resolution) payload)
  | _ => return ()

/-- A request without a decision, of an effect without a receipt. -/
def inspectEffect (bound : PreparedEvidence) : ReconcilerProg ReconciliationResolution := do
  let resolution ← inspect { request, prepared := bound.request, authorization := bound.authorization }
  Fallible.lift (invalid ToolError.toString (bound.validateResolution request resolution))
  commitReceipt codec request bound resolution
  appendIdentical request request.decisionId .effectReconciled (decisionPayload request resolution bound)
  return resolution

/-- `reconcile_tool_effect`. -/
def reconcileToolEffect : ReconcilerProg ReconciliationResolution := do
  Fallible.lift request.validate
  let bound ← startedEvidence codec request
  let receipt ← savedReceipt codec request bound
  match ← reconcilerCall (eventById request.decisionId) with
  | some decision => Fallible.lift (replayDecision codec request bound receipt decision)
  | none =>
      match receipt with
      | some event => answerFromReceipt codec request bound event
      | none => inspectEffect codec request bound

end Model

section Standing

variable (codec : DriverCodec) (request : ReconciliationRequest) (events : List LedgerEvent)

/-- The fact under an id. -/
def factUnder (id : String) : Option LedgerEvent := events.find? fun event => event.eventId = id

/-- What `required` finds. -/
def requiredIn (id : String) (kind : LedgerEventKind) : Except RuntimeError LedgerEvent := do
  let event ← expect (factUnder events id) (.driver ("missing fact " ++ id))
  invalid ToolError.toString (checkEvent event request.execution id kind)
  return event

/-- The evidence that the ledger holds. -/
def evidenceIn : Except RuntimeError PreparedEvidence := do
  let identity ← requiredIn request events (request.execution.executionId ++ "/execution-started") .executionStarted
  reject (identity.payload ≠ request.execution.toValue) (.driver "execution binding differs")
  let prepared ← requiredIn request events (request.root ++ "/prepared") .effectPrepared
  let authorized ← requiredIn request events (request.root ++ "/authorized") .effectAuthorized
  let bound ← invalid ToolError.toString
    (fromFacts codec request.execution request.effectId prepared.payload authorized.payload)
  let started ← requiredIn request events (request.root ++ "/started") .effectStarted
  reject (started.payload ≠ bound.startedPayload) (.driver "started effect evidence binding differs")
  return bound

/-- The checks of a receipt. -/
def checkReceipt (bound : PreparedEvidence) (event : LedgerEvent) : Except RuntimeError ToolResult := do
  invalid ToolError.toString (checkEvent event request.execution (request.root ++ "/receipt") .effectReceipt)
  committedOutput codec bound event "failed receipt is not a committed reconciliation"

/-- The receipt that the ledger holds. -/
def receiptIn (bound : PreparedEvidence) : Except RuntimeError (Option LedgerEvent) :=
  match factUnder events (request.root ++ "/receipt") with
  | none => .ok none
  | some event => do
      let _ ← checkReceipt codec request bound event
      return some event

/-- The request that a receipt was committed for, and what it was told. -/
def savedProof (metadata : Value) : Except RuntimeError (ReconciliationRequest × ReconciliationResolution) := do
  let saved ← invalid id (codec.evidence.request (field "request" metadata))
  let resolution ← invalid id (codec.evidence.resolution (field "resolution" metadata))
  return (saved, resolution)

/-- What a receipt says to a request without a decision; nothing, where the
request has to save its decision first. -/
def observedIn (bound : PreparedEvidence) (event : LedgerEvent) :
    Except RuntimeError (Option ReconciliationResolution) := do
  let output ← committedOutput codec bound event "failed receipt is not a committed reconciliation"
  match field? "reconciliation" event.payload with
  | none => return some (observedReceipt bound event output)
  | some metadata => do
      let proof ← savedProof codec metadata
      return if proof.1 = request then none else some (observedReceipt bound event output)

/-- What the ledger says of a request, by the decision of the request or else by
the receipt. -/
def replyIn (bound : PreparedEvidence) (receipt : Option LedgerEvent) :
    Except RuntimeError (Option ReconciliationResolution) :=
  match factUnder events request.decisionId with
  | some decision => do
      let resolution ← replayDecision codec request bound receipt decision
      return some resolution
  | none =>
      match receipt with
      | some event => observedIn codec request bound event
      | none => return none

/-- **The standing answer to a request**: what the ledger alone says; nothing,
where the request has to append or to inspect. -/
def standingReply : Except RuntimeError (Option ReconciliationResolution) := do
  request.validate
  let bound ← evidenceIn codec request events
  let receipt ← receiptIn codec request events bound
  replyIn codec request events bound receipt

end Standing

section Growth

variable {codec : DriverCodec} {request : ReconciliationRequest} {events facts : List LedgerEvent} {id : String}
variable {event : LedgerEvent} {bound : PreparedEvidence}

theorem factUnder_grows (h : factUnder events id = some event) (hgrows : events <+: facts) :
    factUnder facts id = some event := by
  obtain ⟨more, rfl⟩ := hgrows
  rw [factUnder, List.find?_append, show events.find? (fun event => event.eventId = id) = some event from h]
  rfl

theorem factUnder_of_mem (hunique : (events.map (·.eventId)).Nodup) (h : event ∈ events) :
    factUnder events event.eventId = some event := by
  induction events with
  | nil => exact nomatch h
  | cons head events ih =>
    obtain ⟨hhead, hunique⟩ := List.nodup_cons.1 hunique
    rcases List.mem_cons.1 h with rfl | h
    · exact List.find?_cons_of_pos (decide_eq_true rfl)
    · have hne : head.eventId ≠ event.eventId := fun hid => hhead (List.mem_map.2 ⟨event, h, hid.symm⟩)
      rw [factUnder, List.find?_cons_of_neg (by simpa using hne)]
      exact ih hunique h

theorem requiredIn_grows {kind : LedgerEventKind} (h : requiredIn request events id kind = .ok event)
    (hgrows : events <+: facts) : requiredIn request facts id kind = .ok event := by
  simp only [requiredIn, bind_eq_ok, expect_eq_ok, pure_eq_ok] at h ⊢
  obtain ⟨found, hfound, hrest⟩ := h
  exact ⟨found, factUnder_grows hfound hgrows, hrest⟩

theorem evidenceIn_grows (h : evidenceIn codec request events = .ok bound) (hgrows : events <+: facts) :
    evidenceIn codec request facts = .ok bound := by
  simp only [evidenceIn, bind_eq_ok] at h ⊢
  obtain ⟨identity, hidentity, _, hsame, prepared, hprepared, authorized, hauthorized, found, hfound, started, hstarted,
    hrest⟩ := h
  exact ⟨identity, requiredIn_grows hidentity hgrows, _, hsame, prepared, requiredIn_grows hprepared hgrows, authorized,
    requiredIn_grows hauthorized hgrows, found, hfound, started, requiredIn_grows hstarted hgrows, hrest⟩

theorem receiptIn_grows (h : receiptIn codec request events bound = .ok (some event)) (hgrows : events <+: facts) :
    receiptIn codec request facts bound = .ok (some event) := by
  unfold receiptIn at h ⊢
  cases hfact : factUnder events (request.root ++ "/receipt") with
  | none =>
    rw [hfact] at h
    exact nomatch h
  | some found =>
    rw [hfact] at h
    rw [factUnder_grows hfact hgrows]
    exact h

theorem receiptIn_none (h : receiptIn codec request events bound = .ok none) :
    factUnder events (request.root ++ "/receipt") = none := by
  unfold receiptIn at h
  cases hfact : factUnder events (request.root ++ "/receipt") with
  | none => rfl
  | some found =>
    rw [hfact] at h
    simp only [bind_eq_ok, pure_eq_ok, reduceCtorEq, and_false, exists_false] at h

/-- The result is known to be committed. -/
def ReconciliationResolution.isCommitted : ReconciliationResolution → Bool
  | committed _ _ _ _ => true
  | notCommitted _ | unknown _ => false

theorem validateDecisionReceipt_isCommitted {receipt : Option LedgerEvent} {resolution : ReconciliationResolution}
    (h : validateDecisionReceipt codec request bound receipt resolution = .ok ()) :
    receipt.isSome = resolution.isCommitted := by
  cases resolution with
  | committed output executorId executorRevision evidence =>
    obtain ⟨event, hevent, -⟩ := bind_eq_ok.1 h
    rw [expect_eq_ok.1 hevent]
    rfl
  | notCommitted evidence => exact Bool.eq_false_iff.2 (reject_eq_ok.1 h)
  | unknown evidence => exact Bool.eq_false_iff.2 (reject_eq_ok.1 h)

/-- **A standing answer stands**, as long as the request saves no decision of its
own, unless it says no and a receipt has come. -/
theorem standingReply_grows {resolution : ReconciliationResolution}
    (h : standingReply codec request events = .ok (some resolution)) (hgrows : events <+: facts)
    (hnone : factUnder events request.decisionId = none → factUnder facts request.decisionId = none) :
    if resolution.isCommitted = true ∨ factUnder facts (request.root ++ "/receipt") = none then
      standingReply codec request facts = .ok (some resolution)
    else ∃ error, standingReply codec request facts = .error error := by
  unfold standingReply at h ⊢
  obtain ⟨_, hvalid, h⟩ := bind_eq_ok.1 h
  obtain ⟨bound, hbound, h⟩ := bind_eq_ok.1 h
  obtain ⟨receipt, hreceipt, h⟩ := bind_eq_ok.1 h
  rw [hvalid, ok_bind, evidenceIn_grows hbound hgrows, ok_bind]
  unfold replyIn at h ⊢
  cases hdecision : factUnder events request.decisionId with
  | none =>
    rw [hdecision] at h
    rw [hnone hdecision]
    cases receipt with
    | none => exact nomatch h
    | some event =>
      have hcommitted : resolution.isCommitted = true := by
        obtain ⟨output, -, h⟩ := bind_eq_ok.1 h
        split at h
        · obtain rfl := Option.some.inj (pure_eq_ok.1 h)
          rfl
        · obtain ⟨proof, -, h⟩ := bind_eq_ok.1 h
          split_ifs at h
          · exact nomatch pure_eq_ok.1 h
          · obtain rfl := Option.some.inj (pure_eq_ok.1 h)
            rfl
      rw [if_pos (.inl hcommitted), receiptIn_grows hreceipt hgrows]
      exact h
  | some decision =>
    rw [hdecision] at h
    rw [factUnder_grows hdecision hgrows]
    obtain ⟨replayed, hreplay, h⟩ := bind_eq_ok.1 h
    obtain rfl := Option.some.inj (pure_eq_ok.1 h)
    have hsome : receipt.isSome = replayed.isCommitted := by
      simp only [replayDecision, bind_eq_ok, pure_eq_ok] at hreplay
      obtain ⟨_, -, found, -, _, -, _, -, _, hchecked, rfl⟩ := hreplay
      exact validateDecisionReceipt_isCommitted hchecked
    cases receipt with
    | some event =>
      rw [if_pos (.inl hsome.symm), receiptIn_grows hreceipt hgrows, ok_bind]
      exact bind_eq_ok.2 ⟨_, hreplay, rfl⟩
    | none =>
      cases hfact : factUnder facts (request.root ++ "/receipt") with
      | none =>
        rw [if_pos (.inr rfl), show receiptIn codec request facts bound = .ok none by rw [receiptIn, hfact], ok_bind]
        exact bind_eq_ok.2 ⟨_, hreplay, rfl⟩
      | some event =>
        have hrefused : replayed.isCommitted = false := hsome.symm
        rw [if_neg (by simp [hrefused])]
        have hlater : receiptIn codec request facts bound =
            (checkReceipt codec request bound event >>= fun _ => pure (some event)) := by
          rw [receiptIn, hfact]
        rw [hlater]
        cases hcheck : checkReceipt codec request bound event with
        | error error => exact ⟨error, rfl⟩
        | ok output =>
          -- The decision is the same, but now there is a receipt beside it.
          cases hnow : replayDecision codec request bound (some event) decision with
          | error error =>
            refine ⟨error, ?_⟩
            show (replayDecision codec request bound (some event) decision >>= fun found => pure (some found)) = _
            rw [hnow]
            rfl
          | ok other =>
            simp only [replayDecision, bind_eq_ok, pure_eq_ok] at hreplay hnow
            obtain ⟨_, -, found, hfound, _, -, _, -, _, -, rfl⟩ := hreplay
            obtain ⟨_, -, found', hfound', _, -, _, -, _, hchecked, rfl⟩ := hnow
            obtain rfl := Except.ok.inj (hfound.symm.trans hfound')
            exact absurd (validateDecisionReceipt_isCommitted hchecked) (by simp [hrefused])

end Growth

section Proofs

variable {codec : EvidenceCodec} {bound : PreparedEvidence} {request : ReconciliationRequest} {payload : Value}
variable {output : ToolResult} {executorId executorRevision evidence : String}

/-- Decoders that read back what `serde_json` writes. -/
structure EvidenceCodec.Lossless (codec : EvidenceCodec) : Prop where
  receipt : ∀ receipt, codec.receipt receipt.toValue = .ok receipt
  result : ∀ result, codec.result result.toValue = .ok result
  request : ∀ request, codec.request request.toValue = .ok request
  resolution : ∀ resolution, codec.resolution resolution.toValue = .ok resolution

/-- A receipt that a reconciliation commits is valid, and says its output. -/
theorem EvidenceCodec.Lossless.validateReceipt (lossless : codec.Lossless)
    (hvalid : bound.validateResolution request (.committed output executorId executorRevision evidence) = .ok ())
    (hbuilt : bound.receiptPayload codec (.ok output) = .ok payload) :
    bound.validateReceipt codec (withField "reconciliation"
      (reconciliation request (.committed output executorId executorRevision evidence)) payload) = .ok (.ok output) := by
  obtain ⟨-, hwritten⟩ := receiptPayload_ok.1 hbuilt
  have hstated : statedResult codec (withField "reconciliation"
      (reconciliation request (.committed output executorId executorRevision evidence)) payload) = .ok (.ok output) := by
    subst hwritten
    refine bind_eq_ok.2 ⟨_, mapError_eq_ok.2 (lossless.receipt _), ?_⟩
    exact bind_eq_ok.2 ⟨output, mapError_eq_ok.2 (lossless.result output), rfl⟩
  have hproof : bound.reconciled codec
      (reconciliation request (.committed output executorId executorRevision evidence)) (.ok output) =
        .ok (reconciliation request (.committed output executorId executorRevision evidence)) := by
    refine bind_eq_ok.2 ⟨_, mapError_eq_ok.2 (lossless.request request), ?_⟩
    refine bind_eq_ok.2 ⟨_, mapError_eq_ok.2 (lossless.resolution (.committed output ..)), ?_⟩
    exact bind_eq_ok.2 ⟨_, hvalid, bind_eq_ok.2 ⟨_, reject_of_not (not_not.2 rfl), rfl⟩⟩
  have hexpected : bound.expectedReceipt codec (withField "reconciliation"
      (reconciliation request (.committed output executorId executorRevision evidence)) payload) (.ok output) =
        .ok (withField "reconciliation"
          (reconciliation request (.committed output executorId executorRevision evidence)) payload) := by
    refine bind_eq_ok.2 ⟨payload, hbuilt, ?_⟩
    subst hwritten
    exact bind_eq_ok.2 ⟨_, hproof, rfl⟩
  exact bind_eq_ok.2 ⟨_, hstated, bind_eq_ok.2 ⟨_, hexpected, bind_eq_ok.2 ⟨_, reject_of_not (not_not.2 rfl), rfl⟩⟩⟩

/-- **The proof in a receipt** is the one of the request that committed it. -/
theorem proof_of_validateReceipt {metadata : Value}
    (hreceipt : bound.validateReceipt codec payload = .ok (.ok output))
    (hmetadata : field? "reconciliation" payload = some metadata) :
    ∃ request executorId executorRevision evidence,
      metadata = reconciliation request (.committed output executorId executorRevision evidence) ∧
        bound.validateResolution request (.committed output executorId executorRevision evidence) = .ok () := by
  obtain ⟨built, hbuilt, hpayload⟩ := validateReceipt_eq_ok hreceipt
  obtain ⟨-, rfl⟩ := receiptPayload_ok.1 hbuilt
  rcases hpayload with rfl | ⟨request, resolution, ⟨hvalid, hcommits⟩, rfl⟩
  · exact nomatch hmetadata
  · obtain ⟨committed, executorId, executorRevision, evidence, hsame, rfl⟩ := hcommits
    obtain rfl := Except.ok.inj hsame
    exact ⟨request, executorId, executorRevision, evidence, (Option.some.inj hmetadata).symm, hvalid⟩

end Proofs

section Reading

variable {σ H : Type} {P : LedgerStore σ} {C : P.Contract} {step : ℕ → H → (i : Inspection) → i.Answer × H} {thread : ℕ}
variable {E : Setting (Op Inspection) (Op.Answer Inspection.Answer) (World σ H)} {w w' : World σ H} {α β : Type}
variable {codec : DriverCodec} {request : ReconciliationRequest}

theorem same_of_interference (h : Interference C (fun _ => False) (fun a b => b = a) w w') :
    World.Same C w w' where
  sound := h.sound
  events := by
    obtain ⟨more, hmore⟩ := h.grows
    have hnodup := C.ascending h.sound.valid
    cases more with
    | nil => rw [← hmore, List.append_nil]
    | cons event more =>
      have hlater : event ∈ w'.events C := hmore ▸ List.mem_append_right _ (List.mem_cons_self ..)
      have hold : event ∈ w.events C := (h.added event hlater).resolve_right not_false
      rw [show C.events w'.store = w.events C ++ event :: more from hmore.symm] at hnodup
      exact absurd ((List.pairwise_append.1 hnodup).2.2 event hold event (List.mem_cons_self ..)) (lt_irrefl _)
  host := h.host

theorem same_of_reads (hw : w.Sound C) {o : Op Inspection} (ho : o.reads) :
    World.Same C w (perform P step thread w o).2 := by
  cases o with
  | ledger o =>
    cases o with
    | query q => exact ⟨(hw.perform step thread (.ledger (.query q))).1, (C.query_frame hw.valid q).2, rfl⟩
    | append event => exact ho.elim
    | appendUnlessCancelled event => exact ho.elim
  | host i => exact ho.elim

/-- **What a program reflects**: it answers `x` and leaves the world as it is, unless
the store fails. -/
def Reflects (C : P.Contract) (E : Setting (Op Inspection) (Op.Answer Inspection.Answer) (World σ H))
    (p : ReconcilerProg α) (x : Except RuntimeError α) (w : World σ H) : Prop :=
  Prog.Holds E p.run (fun r w' => World.Same C w w' ∧ (r = x ∨ ¬C.Reliable ∧ ∃ e, r = .error e)) w

theorem reflects_lift (hw : w.Sound C) (x : Except RuntimeError α) : Reflects C E (Fallible.lift x) x w :=
  ⟨.refl hw, .inl rfl⟩

theorem holds_of_reflects {p : ReconcilerProg α} {f : α → ReconcilerProg β} {x : Except RuntimeError α}
    {Q : Except RuntimeError β → World σ H → Prop} (h : Reflects C E p x w)
    (hok : ∀ w', World.Same C w w' → ∀ a, x = .ok a → Prog.Holds E (f a).run Q w')
    (herror : ∀ w', World.Same C w w' → ∀ e, x = .error e → Q (.error e) w')
    (hstore : ∀ w', World.Same C w w' → ¬C.Reliable → ∀ e, Q (.error e) w') : Prog.Holds E (p >>= f).run Q w := by
  refine holds_bind (Prog.Holds.mono h fun r w' hr => ?_)
  obtain ⟨hsame, rfl | ⟨hfails, e, rfl⟩⟩ := hr
  · cases r with
    | ok a => exact hok w' hsame a rfl
    | error e => exact herror w' hsame e rfl
  · exact hstore w' hsame hfails e

theorem reflects_bind {p : ReconcilerProg α} {f : α → ReconcilerProg β} {x : Except RuntimeError α}
    {g : α → Except RuntimeError β} (h : Reflects C E p x w)
    (hf : ∀ w', World.Same C w w' → ∀ a, Reflects C E (f a) (g a) w') : Reflects C E (p >>= f) (x >>= g) w := by
  refine holds_of_reflects h (fun w' hsame a ha => ?_) (fun w' hsame e he => ?_) fun w' hsame hfails e => ?_
  · subst ha
    exact Prog.Holds.mono (hf w' hsame a) fun r w'' hr => ⟨hsame.trans hr.1, hr.2⟩
  · subst he
    exact ⟨hsame, .inl rfl⟩
  · exact ⟨hsame, .inr ⟨hfails, e, rfl⟩⟩

theorem ne_empty_of_suffix (text : String) {last : String} (hlast : last ≠ "") : text ++ last ≠ "" :=
  fun h => hlast (String.append_eq_empty_iff.1 h).2

section Lookups

variable (hE : Shares C (fun _ => False) (fun a b => b = a) step thread E)

include hE

theorem holds_same {p : Prog (Op Inspection) (Op.Answer Inspection.Answer) α} (h : p.Within Op.reads)
    (hw : w.Sound C) : Prog.Holds E p (fun _ w' => World.Same C w w') w := by
  refine h.holds (fun w₁ w₂ hsame hrely => ?_) (fun w₁ o _ ho => ?_) (fun w₁ o a w₂ hsame ho hact => ?_) (.refl hw)
  · rw [hE.rely] at hrely
    exact hsame.trans (same_of_interference hrely)
  · cases o with
    | ledger o =>
      cases o with
      | query q => exact hE.queries w₁ q
      | append event => exact ho.elim
      | appendUnlessCancelled event => exact ho.elim
    | host i => exact ho.elim
  · rw [hE.act] at hact
    obtain ⟨rfl, rfl⟩ := Prod.mk.inj hact
    exact hsame.trans (same_of_reads hsame.sound ho)

theorem reflects_eventById (hw : w.Sound C) {id : String} (hid : id ≠ "") :
    Reflects C E (reconcilerCall (eventById id)) (.ok (factUnder (w.events C) id)) w := by
  refine holds_mapError (Prog.Holds.mono ((hE.reads_eventById hid).and
    (holds_same hE (Ledger.reads_eventById id).within hw)) fun r w' hr => ?_)
  obtain ⟨⟨hanswers, hfound⟩, hsame⟩ := hr
  cases r with
  | ok found =>
    obtain ⟨-, rfl⟩ := hfound found rfl
    rw [show w'.events C = w.events C from hsame.events]
    exact ⟨hsame, .inl rfl⟩
  | error e => exact ⟨hsame, .inr ⟨fun reliable => absurd (hanswers reliable) (by simp), _, rfl⟩⟩

theorem reflects_required (hw : w.Sound C) {id : String} (hid : id ≠ "") {kind : LedgerEventKind} :
    Reflects C E (required request id kind) (requiredIn request (w.events C) id kind) w := by
  unfold required
  show Reflects C E _ (.ok (factUnder (w.events C) id) >>= fun found =>
    expect found (.driver ("missing fact " ++ id)) >>= fun event =>
      invalid ToolError.toString (checkEvent event request.execution id kind) >>= fun _ => .ok event) w
  refine reflects_bind (reflects_eventById hE hw hid) fun w₁ h₁ found => ?_
  refine reflects_bind (reflects_lift h₁.sound _) fun w₂ h₂ event => ?_
  exact reflects_bind (reflects_lift h₂.sound _) fun w₃ h₃ _ => reflects_lift h₃.sound (.ok event)

theorem reflects_startedEvidence (hw : w.Sound C) :
    Reflects C E (startedEvidence codec request) (evidenceIn codec request (w.events C)) w := by
  unfold startedEvidence evidenceIn
  refine reflects_bind (reflects_required hE hw (ne_empty_of_suffix _ (by decide))) fun w₁ h₁ identity => ?_
  refine reflects_bind (reflects_lift h₁.sound _) fun w₂ h₂ _ => ?_
  have hsame := h₁.trans h₂
  rw [← hsame.events]
  refine reflects_bind (reflects_required hE h₂.sound (ne_empty_of_suffix _ (by decide))) fun w₃ h₃ prepared => ?_
  rw [← h₃.events]
  refine reflects_bind (reflects_required hE h₃.sound (ne_empty_of_suffix _ (by decide))) fun w₄ h₄ authorized => ?_
  refine reflects_bind (reflects_lift h₄.sound _) fun w₅ h₅ bound => ?_
  rw [← h₄.events, ← h₅.events]
  refine reflects_bind (reflects_required hE h₅.sound (ne_empty_of_suffix _ (by decide))) fun w₆ h₆ started => ?_
  exact reflects_bind (reflects_lift h₆.sound _) fun w₇ h₇ _ => reflects_lift h₇.sound (.ok bound)

theorem reflects_savedReceipt (hw : w.Sound C) (bound : PreparedEvidence) :
    Reflects C E (savedReceipt codec request bound) (receiptIn codec request (w.events C) bound) w := by
  unfold savedReceipt
  show Reflects C E _ (.ok (factUnder (w.events C) (request.root ++ "/receipt")) >>= fun found =>
    match found with
    | none => .ok none
    | some event => checkReceipt codec request bound event >>= fun _ => .ok (some event)) w
  refine reflects_bind (reflects_eventById hE hw (ne_empty_of_suffix _ (by decide))) fun w₁ h₁ found => ?_
  cases found with
  | none => exact reflects_lift h₁.sound (.ok none)
  | some event =>
    dsimp only
    rw [checkReceipt, bind_assoc]
    refine reflects_bind (reflects_lift h₁.sound _) fun w₂ h₂ _ => ?_
    exact reflects_bind (reflects_lift h₂.sound _) fun w₃ h₃ _ => reflects_lift h₃.sound (.ok (some event))

/-- **A call of a request**, against its standing answer: it gives the answer that
there is, and where there is none, it saves the proof of a receipt as its decision,
or inspects. -/
theorem holds_reconcileToolEffect {Q : Except RuntimeError ReconciliationResolution → World σ H → Prop}
    (hw : w.Sound C)
    (hanswer : ∀ w', World.Same C w w' → ∀ resolution,
      standingReply codec request (w.events C) = .ok (some resolution) → Q (.ok resolution) w')
    (herror : ∀ w', World.Same C w w' → ∀ e, standingReply codec request (w.events C) = .error e → Q (.error e) w')
    (hstore : ∀ w', World.Same C w w' → ¬C.Reliable → ∀ e, Q (.error e) w')
    (hsave : ∀ w', World.Same C w w' → standingReply codec request (w.events C) = .ok none → request.validate = .ok () →
      ∀ bound event output metadata resolution, evidenceIn codec request (w.events C) = .ok bound →
        receiptIn codec request (w.events C) bound = .ok (some event) →
        committedOutput codec bound event "failed receipt is not a committed reconciliation" = .ok output →
        field? "reconciliation" event.payload = some metadata → savedProof codec metadata = .ok (request, resolution) →
        Prog.Holds E (do
          appendIdentical request request.decisionId .effectReconciled (decisionPayload request resolution bound)
          return resolution : ReconcilerProg ReconciliationResolution).run Q w')
    (hinspect : ∀ w', World.Same C w w' → standingReply codec request (w.events C) = .ok none →
      request.validate = .ok () → ∀ bound, evidenceIn codec request (w.events C) = .ok bound →
        receiptIn codec request (w.events C) bound = .ok none → factUnder (w.events C) request.decisionId = none →
        Prog.Holds E (inspectEffect codec request bound).run Q w') :
    Prog.Holds E (reconcileToolEffect codec request).run Q w := by
  unfold reconcileToolEffect
  refine holds_of_reflects (reflects_lift hw _) (fun w₁ h₁ _ hvalid => ?_)
    (fun w₁ h₁ e he => herror w₁ h₁ e (by rw [standingReply, he]; rfl)) hstore
  refine holds_of_reflects (reflects_startedEvidence hE h₁.sound) (fun w₂ h₂ bound hbound => ?_)
    (fun w₂ h₂ e he => ?_) fun w₂ h₂ => hstore w₂ (h₁.trans h₂)
  rotate_left
  · rw [h₁.events] at he
    refine herror w₂ (h₁.trans h₂) e ?_
    rw [standingReply, hvalid, ok_bind, he]
    rfl
  replace h₂ := h₁.trans h₂
  rw [h₁.events] at hbound
  refine holds_of_reflects (reflects_savedReceipt hE h₂.sound bound) (fun w₃ h₃ receipt hreceipt => ?_)
    (fun w₃ h₃ e he => ?_) fun w₃ h₃ => hstore w₃ (h₂.trans h₃)
  rotate_left
  · rw [h₂.events] at he
    refine herror w₃ (h₂.trans h₃) e ?_
    rw [standingReply, hvalid, ok_bind, hbound, ok_bind, he]
    rfl
  replace h₃ := h₂.trans h₃
  rw [h₂.events] at hreceipt
  have hreply : standingReply codec request (w.events C) = replyIn codec request (w.events C) bound receipt := by
    rw [standingReply, hvalid, ok_bind, hbound, ok_bind, hreceipt]
    rfl
  unfold replyIn at hreply
  refine holds_of_reflects (reflects_eventById hE h₃.sound (fun h => ?_)) (fun w₄ h₄ found hfound => ?_)
    (fun w₄ h₄ e he => nomatch he) fun w₄ h₄ => hstore w₄ (h₃.trans h₄)
  · exact absurd (String.append_eq_empty_iff.1 (String.append_eq_empty_iff.1 h).1).2 (by decide)
  replace h₄ := h₃.trans h₄
  rw [h₃.events] at hfound
  obtain rfl := Except.ok.inj hfound
  cases hdecision : factUnder (w.events C) request.decisionId with
  | some decision =>
    rw [hdecision] at hreply
    dsimp only at hreply ⊢
    cases hreplay : replayDecision codec request bound receipt decision with
    | ok resolution => exact hanswer w₄ h₄ resolution (by rw [hreply, hreplay]; rfl)
    | error e => exact herror w₄ h₄ e (by rw [hreply, hreplay]; rfl)
  | none =>
    rw [hdecision] at hreply
    cases receipt with
    | none => exact hinspect w₄ h₄ hreply hvalid bound hbound hreceipt hdecision
    | some event =>
      dsimp only at hreply ⊢
      unfold answerFromReceipt
      unfold observedIn at hreply
      refine holds_of_reflects (reflects_lift h₄.sound _) (fun w₅ h₅ output houtput => ?_)
        (fun w₅ h₅ e he => herror w₅ (h₄.trans h₅) e (by rw [hreply, he]; rfl)) fun w₅ h₅ => hstore w₅ (h₄.trans h₅)
      replace h₅ := h₄.trans h₅
      rw [houtput, ok_bind] at hreply
      cases hmetadata : field? "reconciliation" event.payload with
      | none =>
        rw [hmetadata] at hreply
        exact hanswer w₅ h₅ _ hreply
      | some metadata =>
        rw [hmetadata] at hreply
        dsimp only at hreply ⊢
        refine holds_of_reflects (reflects_lift h₅.sound _) (fun w₆ h₆ saved hsaved => ?_)
          (fun w₆ h₆ e he => herror w₆ (h₅.trans h₆) e ?_) fun w₆ h₆ => hstore w₆ (h₅.trans h₆)
        rotate_left
        · rw [hreply, savedProof, he]
          rfl
        replace h₆ := h₅.trans h₆
        refine holds_of_reflects (reflects_lift h₆.sound _) (fun w₇ h₇ resolution hresolution => ?_)
          (fun w₇ h₇ e he => herror w₇ (h₆.trans h₇) e ?_) fun w₇ h₇ => hstore w₇ (h₆.trans h₇)
        rotate_left
        · rw [hreply, savedProof, hsaved, ok_bind, he]
          rfl
        replace h₇ := h₆.trans h₇
        have hproof : savedProof codec metadata = .ok (saved, resolution) := by
          rw [savedProof, hsaved, ok_bind, hresolution]
          rfl
        rw [hproof, ok_bind] at hreply
        split_ifs with hown
        · subst hown
          rw [if_pos rfl] at hreply
          exact hsave w₇ h₇ hreply hvalid bound event output metadata resolution hbound hreceipt houtput hmetadata hproof
        · rw [if_neg hown] at hreply
          exact hanswer w₇ h₇ _ hreply

end Lookups

end Reading

section Writing

variable {σ H : Type} {P : LedgerStore σ} {C : P.Contract} {step : ℕ → H → (i : Inspection) → i.Answer × H} {thread : ℕ}
variable {E : Setting (Op Inspection) (Op.Answer Inspection.Answer) (World σ H)} {w w' w'' : World σ H}
variable {codec : DriverCodec} {request : ReconciliationRequest} {event : LedgerEvent} {id : String}

variable (C) in
/-- A fact is there from now on, and it is all that was added. -/
structure Recorded (event : LedgerEvent) (w w' : World σ H) : Prop where
  sound : w'.Sound C
  grows : w.events C <+: w'.events C
  added : ∀ fact ∈ w'.events C, fact ∈ w.events C ∨ fact.eventId = event.eventId
  saved : ∃ fact, factUnder (w'.events C) event.eventId = some fact ∧ { fact with cursor := 0 } = event

theorem Recorded.absent (h : Recorded C event w w') (hid : id ≠ event.eventId) (hnone : factUnder (w.events C) id = none) :
    factUnder (w'.events C) id = none := by
  refine List.find?_eq_none.2 fun fact hfact => ?_
  rcases h.added fact hfact with hold | hnew
  · exact List.find?_eq_none.1 hnone fact hold
  · rw [hnew]
    simpa using fun h => hid h.symm

theorem checkEvent_of_identified {fact : LedgerEvent} {key : ExecutionRef} {kind : LedgerEventKind} {payload : Value}
    (h : { fact with cursor := 0 } = identified key id kind payload) :
    checkEvent fact key id kind = .ok () ∧ fact.payload = payload := by
  have hid : fact.eventId = id := congrArg LedgerEvent.eventId h
  have hexecution : fact.executionId = key.executionId := congrArg LedgerEvent.executionId h
  have hturn : fact.turnId = key.turnId := congrArg LedgerEvent.turnId h
  have hkind : fact.kind = kind := congrArg LedgerEvent.kind h
  have hkey : fact.idempotencyKey = id := congrArg LedgerEvent.idempotencyKey h
  exact ⟨reject_of_not (by simp [hid, hexecution, hturn, hkind, hkey]), congrArg LedgerEvent.payload h⟩

/-- **An append of a fact that may be there**: the same fact is there then. -/
theorem yields_appendIdentical (hE : Shares C (fun _ => False) (fun a b => b = a) step thread E) (hid : id ≠ "")
    {kind : LedgerEventKind} {payload : Value}
    (hallow : ∀ w, E.allow w (.ledger (.append (identified request.execution id kind payload)))) :
    Yields E (appendIdentical request id kind payload)
      (fun _ w' => Recorded C (identified request.execution id kind payload) w w') w := by
  have happend : Prog.Holds E (Ledger.append (identified request.execution id kind payload) : LedgerProg _ _).run
      (fun r w' => w'.Sound C ∧
        Appended (w.events C) (identified request.execution id kind payload) (w'.events C) r) w := by
    intro w₁ hrely
    rw [hE.rely] at hrely
    have hsame := same_of_interference hrely
    refine ⟨hallow w₁, fun r w₂ hact => ?_⟩
    rw [hE.act] at hact
    obtain ⟨rfl, rfl⟩ := Prod.mk.inj hact
    refine ⟨(hsame.sound.perform step thread (.ledger (.append (identified request.execution id kind payload)))).1, ?_⟩
    rw [← hsame.events]
    exact (C.append_spec hsame.sound.valid _).2
  refine yields_bind (yields_attempt (happend.mono fun r w₁ hr => ?_))
  obtain ⟨hsound, happended⟩ := hr
  have hadded : ∀ fact ∈ w₁.events C, fact ∈ w.events C ∨ fact.eventId = id := fun fact hfact =>
    (happended.mem hfact).imp_right fun h => congrArg LedgerEvent.eventId h
  cases r with
  | ok saved =>
    obtain ⟨-, hsaved, hevents⟩ := happended.ok
    have hmem : saved ∈ w₁.events C := by
      rw [hevents]
      exact List.mem_append_right _ (List.mem_singleton.2 rfl)
    have hfact : factUnder (w₁.events C) id = some saved := by
      rw [← show saved.eventId = id from congrArg LedgerEvent.eventId hsaved]
      exact factUnder_of_mem (C.unique hsound.valid) hmem
    refine yields_pure ⟨hsound, happended.grows, hadded, saved, hfact, ?_⟩
    rw [hsaved]
    rfl
  | error error =>
    cases error with
    | conflict key =>
      refine yields_bind ((reflects_eventById hE hsound hid).mono fun r w₂ hr found hfound => ?_)
      obtain ⟨hsame, hr⟩ := hr
      rw [hfound] at hr
      obtain rfl := Except.ok.inj (hr.resolve_right fun h => nomatch h.2)
      refine yields_bind (yields_lift fun fact hfact => yields_lift fun _ hequal => ?_)
      refine ⟨hsame.sound, ?_, ?_, fact, ?_, not_not.1 (reject_eq_ok.1 hequal)⟩
      · rw [hsame.events]
        exact happended.grows
      · rw [hsame.events]
        exact hadded
      · rw [hsame.events]
        exact expect_eq_ok.1 hfact
    | _ => exact yields_throw

theorem yields_inspect (hE : Shares C (fun _ => False) (fun a b => b = a) step thread E) (inspection : Inspection)
    (hallow : ∀ w, E.allow w (.host inspection)) :
    Yields E (inspect inspection) (fun _ w' => w'.Sound C ∧ w'.events C = w.events C) w := by
  intro w₁ hrely
  rw [hE.rely] at hrely
  have hsame := same_of_interference hrely
  refine ⟨hallow w₁, fun r w₂ hact => ?_⟩
  rw [hE.act] at hact
  obtain ⟨rfl, rfl⟩ := Prod.mk.inj hact
  exact fun _ _ => ⟨(hsame.sound.perform step thread (.host inspection)).1, hsame.events⟩

theorem receipt_ne_decision (root id : String) : root ++ "/receipt" ≠ root ++ "/reconciliation/" ++ id := by
  rw [String.append_assoc, Ne, String.append_right_inj]
  intro h
  have h := congrArg String.toList h
  simp at h

variable {events : List LedgerEvent} {bound : PreparedEvidence} {receipt : Option LedgerEvent}
variable {resolution : ReconciliationResolution}

theorem standingReply_of_decision (lossless : codec.evidence.Lossless) {fact : LedgerEvent}
    (hvalid : request.validate = .ok ()) (hbound : evidenceIn codec request events = .ok bound)
    (hreceipt : receiptIn codec request events bound = .ok receipt)
    (hfact : factUnder events request.decisionId = some fact)
    (hsaved : { fact with cursor := 0 } = identified request.execution request.decisionId .effectReconciled
      (decisionPayload request resolution bound))
    (hresolution : bound.validateResolution request resolution = .ok ())
    (hchecked : validateDecisionReceipt codec request bound receipt resolution = .ok ()) :
    standingReply codec request events = .ok (some resolution) := by
  obtain ⟨hevent, hpayload⟩ := checkEvent_of_identified hsaved
  have hdecoded : codec.evidence.resolution (field "resolution" fact.payload) = .ok resolution := by
    rw [hpayload]
    exact lossless.resolution resolution
  have hreplay : replayDecision codec request bound receipt fact = .ok resolution := by
    refine bind_eq_ok.2 ⟨_, mapError_eq_ok.2 hevent, bind_eq_ok.2 ⟨_, mapError_eq_ok.2 hdecoded, ?_⟩⟩
    refine bind_eq_ok.2 ⟨_, mapError_eq_ok.2 hresolution, bind_eq_ok.2 ⟨_, reject_of_not (not_not.2 hpayload), ?_⟩⟩
    exact bind_eq_ok.2 ⟨_, hchecked, rfl⟩
  rw [standingReply, hvalid, ok_bind, hbound, ok_bind, hreceipt, ok_bind]
  unfold replyIn
  rw [hfact]
  exact bind_eq_ok.2 ⟨_, hreplay, rfl⟩

theorem committedOutput_eq_ok {message : String} {output : ToolResult} :
    committedOutput codec bound event message = .ok output ↔
      bound.validateReceipt codec.evidence event.payload = .ok (.ok output) := by
  simp only [committedOutput, invalid, bind_eq_ok, mapError_eq_ok]
  constructor
  · rintro ⟨outcome, houtcome, rfl⟩
    exact houtcome
  · exact fun h => ⟨_, h, rfl⟩

/-- A committed decision, beside the receipt that was committed for it. -/
theorem validateDecisionReceipt_committed {output : ToolResult} {executorId executorRevision evidence : String}
    (houtput : bound.validateReceipt codec.evidence event.payload = .ok (.ok output))
    (hproof : field? "reconciliation" event.payload =
      some (reconciliation request (.committed output executorId executorRevision evidence))) :
    validateDecisionReceipt codec request bound (some event) (.committed output executorId executorRevision evidence) =
      .ok () := by
  refine bind_eq_ok.2 ⟨event, rfl, bind_eq_ok.2 ⟨output, committedOutput_eq_ok.2 houtput, reject_of_not ?_⟩⟩
  rw [field, hproof]
  simp

/-- **A call that answers leaves its answer**: from then on the ledger alone says it. -/
theorem yields_standing (lossless : codec.evidence.Lossless) (hw : w.Sound C) :
    Yields (setting C (fun _ => False) (fun a b => b = a) step (fun _ _ => True) thread) (reconcileToolEffect codec request)
      (fun resolution w' => w'.Sound C ∧ standingReply codec request (w'.events C) = .ok (some resolution)) w := by
  have hE : Shares C (fun _ => False) (fun a b => b = a) step thread
      (setting C (fun _ => False) (fun a b => b = a) step (fun _ _ => True) thread) := ⟨rfl, rfl, fun _ _ => trivial⟩
  have hdecisionId : request.decisionId ≠ "" := fun h =>
    absurd (String.append_eq_empty_iff.1 (String.append_eq_empty_iff.1 h).1).2 (by decide)
  have hreceiptId : request.root ++ "/receipt" ≠ "" := ne_empty_of_suffix _ (by decide)
  have hdiffer : request.root ++ "/receipt" ≠ request.decisionId := receipt_ne_decision _ _
  refine holds_reconcileToolEffect hE hw (fun w₁ h₁ resolution hreply => ?_) (fun w₁ h₁ e he => nofun)
    (fun w₁ h₁ hfails e => nofun) (fun w₁ h₁ hreply hvalid bound event output metadata resolution hbound hreceipt houtput
      hmetadata hproof => ?_) fun w₁ h₁ hreply hvalid bound hbound hreceipt hdecision => ?_
  · rintro answer hanswer
    obtain rfl := Except.ok.inj hanswer
    refine ⟨h₁.sound, ?_⟩
    rw [h₁.events]
    exact hreply
  · -- The receipt was committed for the request, which has crashed before it saved its decision.
    obtain ⟨saved, executorId, executorRevision, evidence, rfl, hresolution⟩ :=
      proof_of_validateReceipt (committedOutput_eq_ok.1 houtput) hmetadata
    have hsame : saved = request ∧ ReconciliationResolution.committed output executorId executorRevision evidence =
        resolution := by
      simp only [savedProof, invalid, bind_eq_ok, mapError_eq_ok, pure_eq_ok, Prod.mk.injEq] at hproof
      obtain ⟨request', hrequest, resolution', hdecoded, rfl, rfl⟩ := hproof
      exact ⟨Except.ok.inj ((lossless.request saved).symm.trans hrequest),
        Except.ok.inj ((lossless.resolution _).symm.trans hdecoded)⟩
    obtain ⟨rfl, rfl⟩ := hsame
    refine yields_bind ((yields_appendIdentical hE hdecisionId fun _ => trivial).mono fun _ w₂ hrecorded => ?_)
    refine yields_pure ⟨hrecorded.sound, ?_⟩
    have hgrows : w.events C <+: w₂.events C := h₁.events ▸ hrecorded.grows
    obtain ⟨fact, hfact, hsaved⟩ := hrecorded.saved
    exact standingReply_of_decision lossless hvalid (evidenceIn_grows hbound hgrows) (receiptIn_grows hreceipt hgrows) hfact
      hsaved hresolution (validateDecisionReceipt_committed (committedOutput_eq_ok.1 houtput) hmetadata)
  · unfold inspectEffect
    refine yields_bind ((yields_inspect hE _ fun _ => trivial).mono fun resolution w₂ h₂ => ?_)
    obtain ⟨hsound, hevents⟩ := h₂
    replace hevents := hevents.trans h₁.events
    refine yields_bind (yields_lift fun _ hresolution => ?_)
    replace hresolution := mapError_eq_ok.1 hresolution
    cases resolution with
    | committed output executorId executorRevision evidence =>
      refine yields_bind (yields_bind (yields_lift fun payload hpayload => ?_))
      replace hpayload := mapError_eq_ok.1 hpayload
      refine (yields_appendIdentical hE hreceiptId fun _ => trivial).mono fun _ w₃ hreceived => ?_
      refine yields_bind ((yields_appendIdentical hE hdecisionId fun _ => trivial).mono fun _ w₄ hrecorded => ?_)
      refine yields_pure ⟨hrecorded.sound, ?_⟩
      have hgrows : w.events C <+: w₄.events C := hevents ▸ hreceived.grows.trans hrecorded.grows
      obtain ⟨event, hfound, hequal⟩ := hreceived.saved
      obtain ⟨hevent, hmatches⟩ := checkEvent_of_identified hequal
      have houtput : bound.validateReceipt codec.evidence event.payload = .ok (.ok output) := by
        rw [hmatches]
        exact lossless.validateReceipt hresolution hpayload
      have hmetadata : field? "reconciliation" event.payload =
          some (reconciliation request (.committed output executorId executorRevision evidence)) := by
        rw [hmatches, (receiptPayload_ok.1 hpayload).2]
        rfl
      have hthere : factUnder (w₄.events C) (request.root ++ "/receipt") = some event :=
        factUnder_grows hfound hrecorded.grows
      have hlater : receiptIn codec request (w₄.events C) bound = .ok (some event) := by
        unfold receiptIn
        rw [hthere]
        exact bind_eq_ok.2 ⟨output, bind_eq_ok.2 ⟨_, mapError_eq_ok.2 hevent, committedOutput_eq_ok.2 houtput⟩, rfl⟩
      obtain ⟨fact, hfact, hsaved⟩ := hrecorded.saved
      exact standingReply_of_decision lossless hvalid (evidenceIn_grows hbound hgrows) hlater hfact hsaved hresolution
        (validateDecisionReceipt_committed houtput hmetadata)
    | notCommitted evidence | unknown evidence =>
      refine yields_bind (yields_pure ?_)
      refine yields_bind ((yields_appendIdentical hE hdecisionId fun _ => trivial).mono fun _ w₃ hrecorded => ?_)
      refine yields_pure ⟨hrecorded.sound, ?_⟩
      have hgrows : w.events C <+: w₃.events C := hevents ▸ hrecorded.grows
      have hlater : receiptIn codec request (w₃.events C) bound = .ok none := by
        unfold receiptIn
        rw [hrecorded.absent hdiffer (hevents ▸ receiptIn_none hreceipt)]
      obtain ⟨fact, hfact, hsaved⟩ := hrecorded.saved
      exact standingReply_of_decision lossless hvalid (evidenceIn_grows hbound hgrows) hlater hfact hsaved hresolution
        (reject_of_not (by simp))

end Writing

section Operations

variable {α : Type} (codec : DriverCodec) (request : ReconciliationRequest)

/-- The operations of a request: it adds the receipt of its effect and its own
decision, and nothing else. -/
def ReconciliationRequest.asks (request : ReconciliationRequest) : Op Inspection → Prop
  | .ledger (.query _) => True
  | .ledger (.append event) => event.eventId = request.root ++ "/receipt" ∨ event.eventId = request.decisionId
  | .ledger (.appendUnlessCancelled _) => False
  | .host _ => True

instance asks_reconcilerCall (p : LedgerProg Inspection.Answer α) [h : Only Op.reads p] :
    Only request.asks (reconcilerCall p) := by
  refine ⟨within_mapError (Prog.Within.mono h.within fun o ho => ?_)⟩
  cases o with
  | ledger o =>
    cases o with
    | query q => trivial
    | append event => exact ho.elim
    | appendUnlessCancelled event => exact ho.elim
  | host e => exact ho.elim

instance asks_inspect (inspection : Inspection) : Only request.asks (inspect inspection) := ⟨trivial, fun _ => trivial⟩

instance asks_required (id : String) (kind : LedgerEventKind) : Only request.asks (required request id kind) := by
  unfold required; infer_instance

instance asks_startedEvidence : Only request.asks (startedEvidence codec request) := by
  unfold startedEvidence; infer_instance

instance asks_savedReceipt (bound : PreparedEvidence) : Only request.asks (savedReceipt codec request bound) := by
  refine ⟨within_bind (asks_reconcilerCall request _).within fun found => ?_⟩
  cases found with
  | none => exact within_pure _
  | some event => exact Only.within

theorem within_appendIdentical {id : String} (hid : id = request.root ++ "/receipt" ∨ id = request.decisionId)
    (kind : LedgerEventKind) (payload : Value) : Within request.asks (appendIdentical request id kind payload) := by
  refine within_bind (within_attempt ⟨hid, fun _ => trivial⟩) fun r => ?_
  cases r with
  | ok saved => exact within_pure _
  | error error =>
    cases error with
    | conflict key => exact Only.within
    | _ => exact within_throw _

instance asks_answerFromReceipt (bound : PreparedEvidence) (event : LedgerEvent) :
    Only request.asks (answerFromReceipt codec request bound event) := by
  refine ⟨within_bind (within_lift _) fun output => ?_⟩
  split
  · exact within_pure _
  · refine within_bind (within_lift _) fun saved => within_bind (within_lift _) fun resolution => ?_
    split_ifs
    · exact within_bind (within_appendIdentical request (.inr rfl) _ _) fun _ => within_pure _
    · exact within_pure _

instance asks_commitReceipt (bound : PreparedEvidence) (resolution : ReconciliationResolution) :
    Only request.asks (commitReceipt codec request bound resolution) := by
  cases resolution with
  | committed output executorId executorRevision evidence =>
    exact ⟨within_bind (within_lift _) fun _ => within_appendIdentical request (.inl rfl) _ _⟩
  | notCommitted evidence => exact only_pure _
  | unknown evidence => exact only_pure _

instance asks_inspectEffect (bound : PreparedEvidence) : Only request.asks (inspectEffect codec request bound) := by
  refine ⟨within_bind (asks_inspect request _).within fun resolution => within_bind (within_lift _) fun _ => ?_⟩
  refine within_bind (asks_commitReceipt codec request bound resolution).within fun _ => ?_
  exact within_bind (within_appendIdentical request (.inr rfl) _ _) fun _ => within_pure _

instance asks_reconcileToolEffect : Only request.asks (reconcileToolEffect codec request) := by
  refine ⟨within_bind (within_lift _) fun _ => within_bind (asks_startedEvidence codec request).within fun bound => ?_⟩
  refine within_bind (asks_savedReceipt codec request bound).within fun receipt => ?_
  refine within_bind (asks_reconcilerCall request _).within fun decision => ?_
  cases decision with
  | some decision => exact within_lift _
  | none =>
    cases receipt with
    | some event => exact (asks_answerFromReceipt codec request bound event).within
    | none => exact (asks_inspectEffect codec request bound).within

end Operations

section Runs

variable {σ H α : Type} {P : LedgerStore σ} {C : P.Contract} {step : ℕ → H → (i : Inspection) → i.Answer × H} {thread : ℕ}
variable {w w' w₁ w₂ : World σ H} {codec : DriverCodec} {request : ReconciliationRequest} {room : ℕ}

theorem endsAlone_reconcilerCall {p : LedgerProg Inspection.Answer α} {own : ℕ} (h : EndsAlone C step thread room own p) :
    EndsAlone C step thread room own (reconcilerCall p) := h.mapError

theorem endsAlone_required {id : String} {kind : LedgerEventKind} :
    EndsAlone C step thread room 0 (required request id kind) :=
  endsAlone_then (endsAlone_reconcilerCall endsAlone_eventById) fun _ => endsAlone_then (endsAlone_lift _) fun _ =>
    endsAlone_then (endsAlone_lift _) fun _ => endsAlone_pure _

theorem endsAlone_startedEvidence : EndsAlone C step thread room 0 (startedEvidence codec request) :=
  endsAlone_then endsAlone_required fun _ => endsAlone_then (endsAlone_lift _) fun _ =>
    endsAlone_then endsAlone_required fun _ => endsAlone_then endsAlone_required fun _ =>
      endsAlone_then (endsAlone_lift _) fun _ => endsAlone_then endsAlone_required fun _ =>
        endsAlone_then (endsAlone_lift _) fun _ => endsAlone_pure _

theorem endsAlone_savedReceipt {bound : PreparedEvidence} :
    EndsAlone C step thread room 0 (savedReceipt codec request bound) := by
  refine endsAlone_then (endsAlone_reconcilerCall endsAlone_eventById) fun found => ?_
  cases found with
  | none => exact endsAlone_pure _
  | some event =>
    exact endsAlone_then (endsAlone_lift _) fun _ => endsAlone_then (endsAlone_lift _) fun _ => endsAlone_pure _

theorem endsAlone_appendIdentical {id : String} {kind : LedgerEventKind} {payload : Value} :
    EndsAlone C step thread room 1 (appendIdentical request id kind payload) := by
  refine endsAlone_bind 1 0 endsAlone_append.attempt (fun r => ?_) le_rfl
  cases r with
  | ok saved => exact endsAlone_pure _
  | error error =>
    cases error with
    | conflict key =>
      exact endsAlone_then (endsAlone_reconcilerCall endsAlone_eventById) fun _ =>
        endsAlone_then (endsAlone_lift _) fun _ => endsAlone_lift _
    | _ => exact endsAlone_throw _

theorem endsAlone_inspect {inspection : Inspection} : EndsAlone C step thread room 0 (inspect inspection) :=
  endsAlone_ask fun _ _ => le_rfl

theorem endsAlone_answerFromReceipt {bound : PreparedEvidence} {event : LedgerEvent} :
    EndsAlone C step thread room 2 (answerFromReceipt codec request bound event) := by
  refine endsAlone_then (endsAlone_lift _) fun output => ?_
  split
  · exact endsAlone_pure _
  · refine endsAlone_then (endsAlone_lift _) fun saved => endsAlone_then (endsAlone_lift _) fun resolution => ?_
    split_ifs
    · exact endsAlone_bind 1 0 endsAlone_appendIdentical (fun _ => endsAlone_pure _) (by omega)
    · exact endsAlone_pure _

theorem endsAlone_inspectEffect {bound : PreparedEvidence} :
    EndsAlone C step thread room 2 (inspectEffect codec request bound) := by
  refine endsAlone_then endsAlone_inspect fun resolution => endsAlone_then (endsAlone_lift _) fun _ => ?_
  have hcommit : EndsAlone C step thread room 1 (commitReceipt codec request bound resolution) := by
    cases resolution with
    | committed output executorId executorRevision evidence =>
      exact endsAlone_then (endsAlone_lift _) fun _ => endsAlone_appendIdentical
    | notCommitted evidence => exact endsAlone_pure _
    | unknown evidence => exact endsAlone_pure _
  refine endsAlone_bind 1 1 hcommit (fun _ => ?_) le_rfl
  exact endsAlone_bind 1 0 endsAlone_appendIdentical (fun _ => endsAlone_pure _) le_rfl

theorem endsAlone_reconcileToolEffect : EndsAlone C step thread room 2 (reconcileToolEffect codec request) := by
  refine endsAlone_then (endsAlone_lift _) fun _ => endsAlone_then endsAlone_startedEvidence fun bound => ?_
  refine endsAlone_then endsAlone_savedReceipt fun receipt => ?_
  refine endsAlone_then (endsAlone_reconcilerCall endsAlone_eventById) fun decision => ?_
  cases decision with
  | some decision => exact endsAlone_lift _
  | none =>
    cases receipt with
    | some event => exact endsAlone_answerFromReceipt
    | none => exact endsAlone_inspectEffect

variable (C codec request) in
/-- **What may come later**: calls of this request and of others about the same
effect, by any process and against any inspector, each cut off after any number of
its operations, and facts of others that are not the decision of this request. -/
inductive Later (w₁ : World σ H) : World σ H → Prop
  | now : Later w₁ w₁
  | call {w : World σ H} (before : Later w₁ w) (reconciliationId : String)
      (step : ℕ → H → (i : Inspection) → i.Answer × H) (thread operations : ℕ) :
      Later w₁ ((reconcileToolEffect codec { request with reconciliationId }).run.cut (perform P step thread) operations w)
  | others {w w' : World σ H} (before : Later w₁ w)
      (meanwhile : Interference C (fun event => event.eventId ≠ request.decisionId) (fun _ _ => True) w w') : Later w₁ w'

theorem Later.completed (h : Later C codec request w₁ w) {reconciliationId : String}
    {r : Except RuntimeError ReconciliationResolution}
    (hrun : (reconcileToolEffect codec { request with reconciliationId }).run.run (perform P step thread) w = some (r, w')) :
    Later C codec request w₁ w' := by
  obtain ⟨operations, rfl⟩ := Prog.exists_cut_of_run hrun
  exact h.call reconciliationId step thread operations

variable (C request) in
/-- What stays: the facts, and that the request has saved no decision. -/
structure Kept (w₁ w : World σ H) : Prop where
  sound : w.Sound C
  grows : w₁.events C <+: w.events C
  undecided : factUnder (w₁.events C) request.decisionId = none → factUnder (w.events C) request.decisionId = none

theorem Kept.add (h : Kept C request w₁ w) (hsound : w'.Sound C) (hgrows : w.events C <+: w'.events C)
    (hadded : ∀ event ∈ w'.events C, event ∈ w.events C ∨ event.eventId ≠ request.decisionId) : Kept C request w₁ w' where
  sound := hsound
  grows := h.grows.trans hgrows
  undecided := fun hnone => List.find?_eq_none.2 fun event hevent => by
    rcases hadded event hevent with hold | hother
    · exact List.find?_eq_none.1 (h.undecided hnone) event hold
    · simpa using hother

theorem Kept.same (h : Kept C request w₁ w) (hsame : World.Same C w w') : Kept C request w₁ w' :=
  h.add hsame.sound (hsame.events ▸ List.prefix_rfl) fun _ hevent => .inl (hsame.events ▸ hevent)

/-- A call that only reads. -/
def reading (C : P.Contract) (step : ℕ → H → (i : Inspection) → i.Answer × H) (thread : ℕ) :
    Setting (Op Inspection) (Op.Answer Inspection.Answer) (World σ H) where
  act w o r w' := perform P step thread w o = (r, w')
  rely := Interference C (fun _ => False) fun a b => b = a
  allow _ o := o.reads

theorem holds_standing (hw : w.Sound C) (hreply : standingReply codec request (w.events C) ≠ .ok none) :
    Prog.Holds (reading C step thread) (reconcileToolEffect codec request).run
      (fun r w' => World.Same C w w' ∧ (C.Reliable →
        standingReply codec request (w.events C) = r.map some)) w := by
  refine holds_reconcileToolEffect ⟨rfl, rfl, fun _ _ => trivial⟩ hw (fun w' hsame resolution h => ⟨hsame, fun _ => h⟩)
    (fun w' hsame e h => ⟨hsame, fun _ => h⟩) (fun w' hsame hfails e => ⟨hsame, fun reliable => absurd reliable hfails⟩)
    (fun _ _ hnone => absurd hnone hreply) fun _ _ hnone => absurd hnone hreply

/-- The answer to a request that was answered `x` before. -/
theorem standingReply_kept {resolution : ReconciliationResolution}
    (h : standingReply codec request (w₁.events C) = .ok (some resolution)) (hkept : Kept C request w₁ w) :
    if resolution.isCommitted = true ∨ factUnder (w.events C) (request.root ++ "/receipt") = none then
      standingReply codec request (w.events C) = .ok (some resolution)
    else ∃ error, standingReply codec request (w.events C) = .error error :=
  standingReply_grows h hkept.grows hkept.undecided

theorem standingReply_ne_none {resolution : ReconciliationResolution}
    (h : standingReply codec request (w₁.events C) = .ok (some resolution)) (hkept : Kept C request w₁ w) :
    standingReply codec request (w.events C) ≠ .ok none := by
  have hlater := standingReply_kept h hkept
  intro hnone
  rw [hnone] at hlater
  split_ifs at hlater
  · exact nomatch hlater
  · exact nomatch hlater

theorem undisturbed (hw : w.Sound C) : Interference C (fun _ => False) (fun a b => b = a) w w :=
  ⟨hw, List.prefix_rfl, fun _ => .inl, List.prefix_rfl, rfl⟩

theorem holds_alone {E : Setting (Op Inspection) (Op.Answer Inspection.Answer) (World σ H)}
    (hE : Shares C (fun _ => False) (fun a b => b = a) step thread E)
    {p : Prog (Op Inspection) (Op.Answer Inspection.Answer) α} {Q : α → World σ H → Prop} (h : Prog.Holds E p Q w)
    (hw : w.Sound C) {a : α} (hrun : p.run (perform P step thread) w = some (a, w')) : Q a w' := by
  have hboth : Q a w' ∧ w'.Sound C := by
    refine h.runs (fun w hw => ?_) (fun w o hw _ => ⟨?_, (hw.perform step thread o).1⟩) hw hrun
    · rw [hE.rely]
      exact undisturbed hw
    · rw [hE.act]
  exact hboth.1

theorem Kept.perform (h : Kept C request w₁ w) {reconciliationId : String}
    (hid : reconciliationId ≠ request.reconciliationId) {o : Op Inspection}
    (ho : ReconciliationRequest.asks { request with reconciliationId } o) :
    Kept C request w₁ (perform P step thread w o).2 := by
  obtain ⟨hsound, hgrows, -⟩ := h.sound.perform step thread o
  refine h.add hsound hgrows fun event hevent => ?_
  cases o with
  | ledger o =>
    cases o with
    | query q => exact .inl ((same_of_reads h.sound (o := .ledger (.query q)) trivial).events ▸ hevent)
    | append fact =>
      refine ((C.append_spec h.sound.valid fact).2.mem hevent).imp_right fun hsame => ?_
      rw [show event.eventId = fact.eventId from (congrArg LedgerEvent.eventId hsame :)]
      rcases ho with hreceipt | hdecision
      · rw [hreceipt]
        exact receipt_ne_decision _ _
      · rw [hdecision]
        exact fun h => hid ((String.append_right_inj _).1 h)
    | appendUnlessCancelled fact => exact ho.elim
  | host i => exact .inl hevent

theorem Later.kept {resolution : ReconciliationResolution} (hw : w₁.Sound C)
    (h : standingReply codec request (w₁.events C) = .ok (some resolution)) (hlater : Later C codec request w₁ w) :
    Kept C request w₁ w := by
  induction hlater with
  | now => exact ⟨hw, List.prefix_rfl, id⟩
  | others _ meanwhile ih => exact ih.add meanwhile.sound meanwhile.grows meanwhile.added
  | @call w _ reconciliationId step thread operations ih =>
    by_cases hid : reconciliationId = request.reconciliationId
    · subst hid
      have hreads : Prog.Holds (reading C step thread) (reconcileToolEffect codec request).run _ w :=
        holds_standing ih.sound (standingReply_ne_none h ih)
      have hcut : World.Same C w _ := Prog.Holds.cut (fun w' hsame => undisturbed hsame.sound)
        (fun w' o hsame ho => ⟨rfl, hsame.trans (same_of_reads hsame.sound ho)⟩) hreads (.refl ih.sound) operations
      exact ih.same hcut
    · have hasks : Prog.Holds { reading C step thread with
          allow := fun _ o => ReconciliationRequest.asks { request with reconciliationId } o }
          (reconcileToolEffect codec { request with reconciliationId }).run (fun _ _ => True) w :=
        Prog.Within.holds (asks_reconcileToolEffect codec _).within (fun _ _ _ _ => trivial) (fun _ _ _ ho => ho)
          (fun _ _ _ _ _ _ _ => trivial) trivial
      exact Prog.Holds.cut (fun w' hkept => undisturbed hkept.sound)
        (fun w' o hkept ho => ⟨rfl, hkept.perform hid ho⟩) hasks ih operations

/-- **Reconciliation is idempotent**, for a request that was told that the effect is
committed, or while the effect has no receipt: whatever else was reconciled or was
cut off since, the request is answered the same, out of the ledger alone.  A
request that was told anything else is refused once there is a receipt. -/
theorem reconciliation_idempotent (reliable : C.Reliable) (lossless : codec.evidence.Lossless) {w₀ : World σ H}
    (hw : w₀.Sound C) {resolution : ReconciliationResolution}
    (hfirst : (reconcileToolEffect codec request).run.run (perform P step thread) w₀ = some (.ok resolution, w₁))
    (hlater : Later C codec request w₁ w₂) (step' : ℕ → H → (i : Inspection) → i.Answer × H) (thread' : ℕ) :
    ∃ result w₃, (reconcileToolEffect codec request).run.run (perform P step' thread') w₂ = some (result, w₃) ∧
      World.Same C w₂ w₃ ∧
      if resolution.isCommitted = true ∨ factUnder (w₂.events C) (request.root ++ "/receipt") = none then
        result = .ok resolution
      else ∃ error, result = .error error := by
  obtain ⟨hsound, hreply⟩ := holds_alone ⟨rfl, rfl, fun _ _ => trivial⟩ (yields_standing lossless hw) hw hfirst resolution rfl
  have hkept := hlater.kept hsound hreply
  have hends : EndsAlone C step' thread' ((w₂.events C).length + 3) 2 (reconcileToolEffect codec request) :=
    endsAlone_reconcileToolEffect
  obtain ⟨result, w₃, hrun⟩ := hends.runs hkept.sound (by omega)
  obtain ⟨hsame, hresult⟩ := holds_alone ⟨rfl, rfl, fun _ _ => trivial⟩
    (holds_standing hkept.sound (standingReply_ne_none hreply hkept)) hkept.sound hrun
  refine ⟨result, w₃, hrun, hsame, ?_⟩
  have hnow := standingReply_kept hreply hkept
  rw [hresult reliable] at hnow
  cases result with
  | ok answer =>
    split_ifs at hnow ⊢
    · obtain rfl := Option.some.inj (Except.ok.inj hnow)
      rfl
    · exact nomatch hnow
  | error e =>
    split_ifs at hnow ⊢
    · exact nomatch hnow
    · exact ⟨e, rfl⟩

end Runs

section Entered

def readReconciliation (value : Value) : Except String ReconciliationRequest := do
  let reconciliationId ← textField "reconciliation_id" value
  let sessionId ← textField "session_id" (field "execution" value)
  let turnId ← textField "turn_id" (field "execution" value)
  let executionId ← textField "execution_id" (field "execution" value)
  let effectId ← textField "effect_id" value
  return { reconciliationId, execution := { sessionId, turnId, executionId }, effectId }

def readResolution (value : Value) : Except String ReconciliationResolution :=
  match field? "Committed" value, field? "NotCommitted" value with
  | some body, _ => do
      let output ← readResult (field "output" body)
      let executorId ← textField "executor_id" body
      let executorRevision ← textField "executor_revision" body
      let evidence ← textField "evidence" body
      return .committed output executorId executorRevision evidence
  | none, some body => do return .notCommitted (← textField "evidence" body)
  | none, none => do return .unknown (← textField "evidence" (field "Unknown" value))

/-- An encoding that reads the facts of one effect and its reconciliations back. -/
def enteredCodec : DriverCodec :=
  { ranCodec with
    evidence := { readerCodec with request := readReconciliation, resolution := readResolution }
    readRequest := fun _ => .ok readerEvidence.request
    readPrepared := fun _ => .ok readerCall
    readScope := fun _ => .ok readerScope
    readGrant := fun _ => .ok readerEvidence.grant }

theorem enteredCodec_lossless : enteredCodec.evidence.Lossless where
  receipt := readReceipt_toValue
  result := readResult_toValue
  request := fun _ => rfl
  resolution := fun resolution => by cases resolution <;> rfl

def enteredRequest (reconciliationId : String) : ReconciliationRequest where
  reconciliationId := reconciliationId
  execution := readerScope.execution
  effectId := "step_1/call_1"

def enteredWorld : World LedgerState Unit where
  store := [identified readerScope.execution "e/execution-started" .executionStarted readerScope.execution.toValue,
    identified readerScope.execution "e/effect/step_1/call_1/prepared" .effectPrepared readerEvidence.preparedPayload,
    identified readerScope.execution "e/effect/step_1/call_1/authorized" .effectAuthorized readerEvidence.authorizedPayload,
    identified readerScope.execution "e/effect/step_1/call_1/started" .effectStarted
      readerEvidence.startedPayload].foldl (fun ledger fact => (inMemoryLedger.append ledger fact).2) LedgerState.empty
  host := ()
  authors := []

def tells (resolution : ReconciliationResolution) (_ : ℕ) (h : Unit) (i : Inspection) : i.Answer × Unit :=
  (.ok resolution, h)

def foundCommitted : ReconciliationResolution :=
  .committed { callId := "call_1", content := "", isError := false } "tool/fs_read" "1" "found"

def foundNothing : ReconciliationResolution := .unknown "pending"

abbrev asked (reconciliationId : String) (resolution : ReconciliationResolution) (w : World LedgerState Unit) :
    Option (Except RuntimeError ReconciliationResolution × World LedgerState Unit) :=
  (reconcileToolEffect enteredCodec (enteredRequest reconciliationId)).run.run
    (perform inMemoryLedger (tells resolution) 0) w

def isAnswer (resolution : ReconciliationResolution) : Except RuntimeError ReconciliationResolution → Bool
  | .ok answer => answer = resolution
  | .error _ => false

theorem enteredWorld_sound : enteredWorld.Sound inMemoryContract :=
  World.Sound.start (appendChecked_spec (appendChecked_spec (appendChecked_spec (appendChecked_spec
    LedgerState.ordered_empty _ false).1 _ false).1 _ false).1 _ false).1 _

/-- Another request, of which a crash leaves no more than its lookups, does not
change what the first was told. -/
theorem reconciliation_idempotent_entered : ∃ w₁ w₂ w₃, asked "first" foundCommitted enteredWorld =
      some (.ok foundCommitted, w₁) ∧
    Later inMemoryContract enteredCodec (enteredRequest "first") w₁ w₂ ∧
    asked "first" foundNothing w₂ = some (.ok foundCommitted, w₃) ∧ World.Same inMemoryContract w₂ w₃ := by
  have hran : (asked "first" foundCommitted enteredWorld).any (fun r => isAnswer foundCommitted r.1) = true := by
    decide +kernel
  obtain ⟨⟨r, w₁⟩, hrun, hanswer⟩ := (Option.any_eq_true _ _).1 hran
  cases r with
  | error e => exact nomatch hanswer
  | ok answer =>
    obtain rfl := of_decide_eq_true hanswer
    have hlater : Later inMemoryContract enteredCodec (enteredRequest "first") w₁ _ :=
      Later.now.call "second" (tells foundNothing) 1 3
    obtain ⟨result, w₃, hagain, hsame, hresult⟩ := reconciliation_idempotent Execution.inMemory_reliable
      enteredCodec_lossless enteredWorld_sound hrun hlater (tells foundNothing) 0
    rw [if_pos (.inl rfl)] at hresult
    exact ⟨w₁, _, w₃, hrun, hlater, hresult ▸ hagain, hsame⟩

/-- **A request that was told that nothing is known** is refused once another has
committed the receipt. -/
theorem not_reconciliation_idempotent : ¬∀ (w₀ w₁ w₂ : World LedgerState Unit) (resolution : ReconciliationResolution)
    (step : ℕ → Unit → (i : Inspection) → i.Answer × Unit), w₀.Sound inMemoryContract →
      (reconcileToolEffect enteredCodec (enteredRequest "first")).run.run (perform inMemoryLedger step 0) w₀ =
        some (.ok resolution, w₁) →
      Later inMemoryContract enteredCodec (enteredRequest "first") w₁ w₂ →
      ∃ w₃, (reconcileToolEffect enteredCodec (enteredRequest "first")).run.run (perform inMemoryLedger step 0) w₂ =
        some (.ok resolution, w₃) ∧ World.Same inMemoryContract w₂ w₃ := by
  intro h
  have hran : (asked "first" foundNothing enteredWorld).any (fun r => isAnswer foundNothing r.1 &&
      ((asked "second" foundCommitted r.2).any fun r' => isAnswer foundCommitted r'.1 &&
        (asked "first" foundNothing r'.2).any fun last => !last.1.toBool)) = true := by
    decide +kernel
  obtain ⟨⟨r, w₁⟩, hfirst, hrest⟩ := (Option.any_eq_true _ _).1 hran
  rw [Bool.and_eq_true] at hrest
  obtain ⟨hanswer, hrest⟩ := hrest
  obtain ⟨⟨r', w₂⟩, hsecond, hrest⟩ := (Option.any_eq_true _ _).1 hrest
  rw [Bool.and_eq_true] at hrest
  obtain ⟨⟨last, w₃⟩, hlast, hfails⟩ := (Option.any_eq_true _ _).1 hrest.2
  cases r with
  | error e => exact nomatch hanswer
  | ok answer =>
    obtain rfl := of_decide_eq_true hanswer
    obtain ⟨w₄, hagain, -⟩ := h enteredWorld w₁ w₂ foundNothing (tells foundNothing) enteredWorld_sound hfirst
      (Later.now.completed hsecond)
    obtain ⟨rfl, -⟩ := Prod.mk.inj (Option.some.inj (hlast.symm.trans hagain))
    exact nomatch hfails

end Entered

end Driver
end Kolyan
