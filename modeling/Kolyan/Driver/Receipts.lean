/-
# Receipts, there and back

`PreparedEvidence::receipt_payload` and `validate_receipt`
(`kolyan-runtime/src/reconciliation/receipt.rs`) are written apart: the one
encodes a result with its bindings, the other reads a status and a result out of
a payload, encodes them again and compares.  What the encoder accepts the
decoder reads back (`validateReceipt_receiptPayload`), and what the decoder
accepts is what the encoder writes, with the proof of a reconciliation behind it
at most (`validateReceipt_eq_ok`).  The encoder does not accept every result
within the output limit: a result has to name the call that it answers
(`receiptPayload_ok`).
-/

import Kolyan.Driver.Evidence
import Kolyan.Policy.Grants

namespace Kolyan

namespace Policy

theorem ToolCall.toValue_injective : Function.Injective ToolCall.toValue := by
  rintro ⟨id, name, arguments⟩ ⟨id', name', arguments'⟩ h
  simpa [ToolCall.toValue] using h

theorem option_injective {α : Type} {f : α → Value} (hf : Function.Injective f) (hnull : ∀ a, f a ≠ .null) :
    Function.Injective (Value.option f) := by
  intro a b h
  cases a with
  | none =>
    cases b with
    | none => rfl
    | some b => exact absurd h.symm (hnull b)
  | some a =>
    cases b with
    | none => exact absurd h (hnull a)
    | some b => exact congrArg some (hf h)

theorem optionString_injective : Function.Injective (Value.option Value.string) :=
  option_injective (fun _ _ h => Value.string.inj h) nofun

theorem optionNat_injective : Function.Injective (Value.option Value.nat) :=
  option_injective (fun _ _ h => Nat.repr_injective (Value.number.inj h)) nofun

theorem ToolExecutionScope.toValue_injective : Function.Injective ToolExecutionScope.toValue := by
  rintro ⟨⟨session, turn, execution⟩, step, digest⟩ ⟨⟨session', turn', execution'⟩, step', digest'⟩ h
  simp only [ToolExecutionScope.toValue, ExecutionRef.toValue] at h
  simp at h
  obtain ⟨⟨rfl, rfl, rfl⟩, rfl, hdigest⟩ := h
  rw [optionString_injective hdigest]

theorem PreparedCall.toValue_injective : Function.Injective PreparedCall.toValue := by
  rintro ⟨call, toolRevision, claim, ⟨sandbox, bytes, timeout⟩, binding, digest⟩
    ⟨call', toolRevision', claim', ⟨sandbox', bytes', timeout'⟩, binding', digest'⟩ h
  simp only [PreparedCall.toValue, ToolRequirements.toValue, Value.nat] at h
  simp at h
  obtain ⟨hcall, rfl, hclaim, ⟨rfl, rfl, rfl⟩, rfl, rfl⟩ := h
  rw [ToolCall.toValue_injective hcall, InvocationClaim.canonical_toValue (congrArg Value.canonical hclaim)]

theorem PreparedGrant.toValue_injective : Function.Injective PreparedGrant.toValue := by
  rintro ⟨scope, callId, toolName, toolRevision, digest, policy, ⟨bytes, timeout⟩, evidence⟩
    ⟨scope', callId', toolName', toolRevision', digest', policy', ⟨bytes', timeout'⟩, evidence'⟩ h
  simp only [PreparedGrant.toValue, ExecutionConstraints.toValue] at h
  simp at h
  obtain ⟨hscope, rfl, rfl, rfl, rfl, rfl, ⟨hbytes, htimeout⟩, hevidence⟩ := h
  rw [ToolExecutionScope.toValue_injective hscope, optionNat_injective hbytes, optionNat_injective htimeout,
    optionString_injective hevidence]

end Policy

namespace Driver

open Checks Ledger Policy Turn

variable {codec : EvidenceCodec} {bound other : PreparedEvidence}

section Encoder

/-- A result that the encoder writes a receipt for: a definite error, or an output
that names the call and fits the limit issued for it. -/
def PreparedEvidence.Definite (bound : PreparedEvidence) : Except ToolError ToolResult → Prop
  | .ok output => output.callId = bound.prepared.call.id ∧
      ∃ limit, bound.grant.constraints.maxOutputBytes = some limit ∧ output.toValue.encodedLen ≤ limit
  | .error (.uncertain _) => False
  | .error _ => True

/-- What the encoder writes for it. -/
def PreparedEvidence.written (codec : EvidenceCodec) (bound : PreparedEvidence) : Except ToolError ToolResult → Value
  | .ok output => bound.receiptValue codec "output" output.toValue .completed
  | .error error => bound.receiptValue codec "error" (encodeError error) .failed

theorem validateResult_eq_ok {issued : IssuedToolAuthority} {output : ToolResult} :
    issued.validateResult output = .ok () ↔ output.callId = issued.prepared.call.id ∧
      ∃ limit, issued.grant.constraints.maxOutputBytes = some limit ∧ output.toValue.encodedLen ≤ limit := by
  simp only [IssuedToolAuthority.validateResult, bind_eq_ok, reject_eq_ok, expect_eq_ok, not_not, not_lt]
  constructor
  · rintro ⟨_, hcall, limit, hlimit, hle⟩
    exact ⟨hcall, limit, hlimit, hle⟩
  · rintro ⟨hcall, limit, hlimit, hle⟩
    exact ⟨(), hcall, limit, hlimit, hle⟩

/-- **The encoder** writes a receipt for the definite results, and for no others. -/
theorem receiptPayload_ok {result : Except ToolError ToolResult} {payload : Value} :
    bound.receiptPayload codec result = .ok payload ↔ bound.Definite result ∧ payload = bound.written codec result := by
  cases result with
  | ok output =>
    simp only [PreparedEvidence.receiptPayload, bind_eq_ok, mapError_eq_ok, pure_eq_ok]
    constructor
    · rintro ⟨_, hvalid, rfl⟩
      exact ⟨validateResult_eq_ok.1 hvalid, rfl⟩
    · rintro ⟨hdefinite, rfl⟩
      exact ⟨(), validateResult_eq_ok.2 hdefinite, rfl⟩
  | error error =>
    cases error with
    | uncertain message => exact ⟨fun h => (by cases h), fun h => h.1.elim⟩
    | invalidBatch _ | unavailable _ | failed _ | cancelled | timedOut | policyDenied _ =>
      exact ⟨fun h => ⟨trivial, (Except.ok.inj h).symm⟩, fun h => h.2 ▸ rfl⟩

end Encoder

section Decoder

theorem decodeError_encodeError {error : ToolError} (h : ∀ message, error ≠ .uncertain message) :
    decodeError (encodeError error) = .ok error := by
  have hsame : ¬encodeError error ≠ encodeError error := not_not.2 rfl
  cases error with
  | uncertain message => exact absurd rfl (h message)
  | invalidBatch message | unavailable name | failed message | cancelled | timedOut | policyDenied message =>
    exact bind_eq_ok.2 ⟨_, rfl, bind_eq_ok.2 ⟨(), reject_of_not hsame, rfl⟩⟩

/-- **There and back**: a receipt says the result that it was written for. -/
theorem validateReceipt_receiptPayload (hreceipt : ∀ receipt, codec.receipt receipt.toValue = .ok receipt)
    (hresult : ∀ result, codec.result result.toValue = .ok result) {result : Except ToolError ToolResult}
    {payload : Value} (h : bound.receiptPayload codec result = .ok payload) :
    bound.validateReceipt codec payload = .ok result := by
  obtain ⟨hdefinite, rfl⟩ := receiptPayload_ok.1 h
  have hsame : ¬bound.written codec result ≠ bound.written codec result := not_not.2 rfl
  have hstated : statedResult codec (bound.written codec result) = .ok result := by
    match result with
    | .ok output =>
      refine bind_eq_ok.2 ⟨_, mapError_eq_ok.2 (hreceipt _), ?_⟩
      exact bind_eq_ok.2 ⟨output, mapError_eq_ok.2 (hresult output), rfl⟩
    | .error error =>
      refine bind_eq_ok.2 ⟨_, mapError_eq_ok.2 (hreceipt _), ?_⟩
      refine bind_eq_ok.2 ⟨error, decodeError_encodeError ?_, rfl⟩
      rintro message rfl
      exact hdefinite
  have hexpected : bound.expectedReceipt codec (bound.written codec result) result =
      .ok (bound.written codec result) := by
    refine bind_eq_ok.2 ⟨_, h, ?_⟩
    match result with
    | .ok output => rfl
    | .error error => rfl
  exact bind_eq_ok.2 ⟨_, hstated, bind_eq_ok.2 ⟨_, hexpected, bind_eq_ok.2 ⟨(), reject_of_not hsame, rfl⟩⟩⟩

/-- The proof of a reconciliation, as a receipt holds it. -/
def reconciliation (request : ReconciliationRequest) (resolution : ReconciliationResolution) : Value :=
  .object [("request", request.toValue), ("resolution", resolution.toValue)]

/-- A receipt with the proof of the reconciliation that committed it. -/
structure PreparedEvidence.Reconciles (bound : PreparedEvidence) (result : Except ToolError ToolResult)
    (request : ReconciliationRequest) (resolution : ReconciliationResolution) : Prop where
  valid : bound.validateResolution request resolution = .ok ()
  commits : ∃ output executorId executorRevision evidence, result = .ok output ∧
    resolution = .committed output executorId executorRevision evidence

/-- **What the decoder accepts** is what the encoder writes for the result, with
the proof of a reconciliation to the same result behind it at most. -/
theorem validateReceipt_eq_ok {payload : Value} {result : Except ToolError ToolResult}
    (h : bound.validateReceipt codec payload = .ok result) :
    ∃ built, bound.receiptPayload codec result = .ok built ∧
      (payload = built ∨ ∃ request resolution, bound.Reconciles result request resolution ∧
        payload = withField "reconciliation" (reconciliation request resolution) built) := by
  simp only [PreparedEvidence.validateReceipt, bind_eq_ok, reject_eq_ok, pure_eq_ok, not_not] at h
  obtain ⟨stated, -, expected, hexpected, _, rfl, rfl⟩ := h
  obtain ⟨built, hbuilt, hexpected⟩ := bind_eq_ok.1 hexpected
  refine ⟨built, hbuilt, ?_⟩
  split at hexpected
  · exact .inl (pure_eq_ok.1 hexpected).symm
  · rename_i metadata _
    obtain ⟨proof, hproof, hexpected⟩ := bind_eq_ok.1 hexpected
    obtain rfl := pure_eq_ok.1 hexpected
    simp only [PreparedEvidence.reconciled, bind_eq_ok, mapError_eq_ok] at hproof
    obtain ⟨request, -, resolution, -, _, hvalid, hproof⟩ := hproof
    cases resolution with
    | committed output executorId executorRevision evidence =>
      simp only [bind_eq_ok, reject_eq_ok, not_not, toOption_eq_some, pure_eq_ok] at hproof
      obtain ⟨_, hsame, rfl⟩ := hproof
      exact .inr ⟨request, _, ⟨hvalid, output, executorId, executorRevision, evidence, hsame, rfl⟩, rfl⟩
    | notCommitted evidence => cases hproof
    | unknown evidence => cases hproof

theorem fields_of_validateReceipt {payload : Value} {result : Except ToolError ToolResult}
    (h : bound.validateReceipt codec payload = .ok result) :
    field "effect_id" payload = .string bound.request.effectId ∧ field "input" payload = bound.input ∧
      field "prepared_grant" payload = bound.grant.toValue := by
  obtain ⟨built, hbuilt, hpayload⟩ := validateReceipt_eq_ok h
  obtain ⟨-, rfl⟩ := receiptPayload_ok.1 hbuilt
  rcases hpayload with rfl | ⟨request, resolution, -, rfl⟩
  all_goals
    match result with
    | .ok output => exact ⟨rfl, rfl, rfl⟩
    | .error error => exact ⟨rfl, rfl, rfl⟩

/-- **The receipt codec.**  Every definite result that names the issued call and
fits its limit is read back from its receipt; what is accepted is the receipt of
the result, with the proof of a reconciliation to the same output behind it at
most; and a receipt that two evidences accept is of one effect, scope, grant and
preparation, and says one result. -/
theorem receipts_round_trip (hreceipt : ∀ receipt, codec.receipt receipt.toValue = .ok receipt)
    (hresult : ∀ result, codec.result result.toValue = .ok result) (bound : PreparedEvidence) :
    (∀ result, bound.Definite result → ∃ payload, bound.receiptPayload codec result = .ok payload ∧
      bound.validateReceipt codec payload = .ok result) ∧
    (∀ payload result, bound.validateReceipt codec payload = .ok result →
      ∃ built, bound.receiptPayload codec result = .ok built ∧
        (payload = built ∨ ∃ request resolution, bound.Reconciles result request resolution ∧
          payload = withField "reconciliation" (reconciliation request resolution) built)) ∧
    ∀ other : PreparedEvidence, ∀ payload result result',
      bound.validateReceipt codec payload = .ok result → other.validateReceipt codec payload = .ok result' →
      other.request.effectId = bound.request.effectId ∧ other.scope = bound.scope ∧ other.grant = bound.grant ∧
        other.prepared = bound.prepared ∧ result' = result := by
  refine ⟨fun result hdefinite => ?_, fun payload result h => validateReceipt_eq_ok h,
    fun other payload result result' h h' => ?_⟩
  · have hpayload : bound.receiptPayload codec result = .ok (bound.written codec result) :=
      receiptPayload_ok.2 ⟨hdefinite, rfl⟩
    exact ⟨_, hpayload, validateReceipt_receiptPayload hreceipt hresult hpayload⟩
  · obtain ⟨heffect, hinput, hgrant⟩ := fields_of_validateReceipt h
    obtain ⟨heffect', hinput', hgrant'⟩ := fields_of_validateReceipt h'
    have hboth := List.cons.inj (Value.object.inj (hinput'.symm.trans hinput))
    have hprepared := (Prod.mk.inj hboth.1).2
    have hscope := (Prod.mk.inj (List.cons.inj hboth.2).1).2
    -- The result is the one that the payload states, whoever reads it.
    simp only [PreparedEvidence.validateReceipt, bind_eq_ok, pure_eq_ok] at h h'
    obtain ⟨stated, hstated, -, -, -, -, rfl⟩ := h
    obtain ⟨stated', hstated', -, -, -, -, rfl⟩ := h'
    exact ⟨Value.string.inj (heffect'.symm.trans heffect), ToolExecutionScope.toValue_injective hscope,
      PreparedGrant.toValue_injective (hgrant'.symm.trans hgrant), PreparedCall.toValue_injective hprepared,
      Except.ok.inj (hstated'.symm.trans hstated)⟩

end Decoder

section Reader

def textField (key : String) (value : Value) : Except String String :=
  expect (asStr (field key value)) ("missing field " ++ key)

def statusNamed : String → Except String ReceiptStatus
  | "Completed" => .ok .completed
  | "Failed" => .ok .failed
  | "Uncertain" => .ok .uncertain
  | _ => .error "unknown variant"

def readReceipt (value : Value) : Except String EffectReceipt := do
  let receiptId ← textField "receipt_id" value
  let effectId ← textField "effect_id" value
  let authorizationId ← textField "authorization_id" value
  let inputDigest ← textField "input_digest" value
  let executorId ← textField "executor_id" value
  let executorRevision ← textField "executor_revision" value
  let resultDigest ← textField "result_digest" value
  let name ← textField "status" value
  let status ← statusNamed name
  return { receiptId, effectId, authorizationId, inputDigest, executorId, executorRevision, resultDigest, status }

theorem readReceipt_toValue (receipt : EffectReceipt) : readReceipt receipt.toValue = .ok receipt := by
  obtain ⟨receiptId, effectId, authorizationId, inputDigest, executorId, executorRevision, resultDigest, status⟩ := receipt
  cases status <;> rfl

def readResult (value : Value) : Except String ToolResult := do
  let callId ← textField "call_id" value
  let content ← textField "content" value
  match field "is_error" value with
  | .bool isError => return { callId, content, isError }
  | _ => .error "missing field is_error"

theorem readResult_toValue (result : ToolResult) : readResult result.toValue = .ok result := rfl

def readerCodec : EvidenceCodec where
  sha256 := readerDigest
  text := fun _ => ""
  receipt := readReceipt
  result := readResult
  wait := fun _ => .error ""
  request := fun _ => .error ""
  resolution := fun _ => .error ""

def readerEvidence : PreparedEvidence :=
  boundEvidence readerCodec readerCall
    { readerGrant with constraints := { maxOutputBytes := some 64, timeoutMs := some 500 } } readerScope "v1"
    readerScope.execution

theorem readerEvidence_new : PreparedEvidence.new readerCodec readerCall readerEvidence.grant readerScope "v1"
    readerScope.execution = .ok readerEvidence := by
  decide +kernel

/-- The result of its call is read back from its receipt. -/
theorem receipts_round_trip_reader : ∃ payload,
    readerEvidence.receiptPayload readerCodec (.ok { callId := "call_1", content := "", isError := false }) = .ok payload ∧
      readerEvidence.validateReceipt readerCodec payload =
        .ok (.ok { callId := "call_1", content := "", isError := false }) :=
  (receipts_round_trip readReceipt_toValue readResult_toValue readerEvidence).1 _
    ⟨rfl, 64, rfl, by decide +kernel⟩

/-- A result within the limit that names another call has no receipt. -/
theorem not_receipts_round_trip : ¬∀ bound : PreparedEvidence,
    (∃ prepared grant scope revision execution,
      PreparedEvidence.new readerCodec prepared grant scope revision execution = .ok bound) →
    ∀ result : Except ToolError ToolResult, (∀ message, result ≠ .error (.uncertain message)) →
      (∀ output, result = .ok output → ∀ limit, bound.grant.constraints.maxOutputBytes = some limit →
        output.toValue.encodedLen ≤ limit) →
      ∃ payload, bound.receiptPayload readerCodec result = .ok payload ∧
        bound.validateReceipt readerCodec payload = .ok result := by
  intro h
  obtain ⟨payload, hpayload, -⟩ := h readerEvidence ⟨_, _, _, _, _, readerEvidence_new⟩
    (.ok { callId := "call_2", content := "", isError := false }) nofun (fun output houtput limit hlimit => by
      obtain rfl := Except.ok.inj houtput
      obtain rfl := Option.some.inj hlimit
      decide +kernel)
  exact absurd (receiptPayload_ok.1 hpayload).1.1 (by decide)

end Reader

end Driver
end Kolyan
