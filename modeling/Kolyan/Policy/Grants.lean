/-
# What a grant is good for

A `PreparedGrant` is issued for one preparation, one scope and one revision of the
policy, and `validate` compares what it is shown with what it was issued for.  The
digest of a preparation is taken of all its content (`content_canonical`), so a
grant that is accepted is accepted for the very call that it was issued for, under the
very policy and in the very execution (`issue_binds`).
-/

import Kolyan.Policy.Prepared

namespace Kolyan
namespace Policy

open Checks

/-! ### The content of a preparation -/

section Content

theorem Capability.canonical_toValue {a b : Capability} (h : a.toValue.canonical = b.toValue.canonical) : a = b := by
  cases a <;> cases b <;> first | rfl | exact absurd h (by decide)

theorem Effect.canonical_toValue {a b : Effect} (h : a.toValue.canonical = b.toValue.canonical) : a = b := by
  cases a <;> cases b <;> first | rfl | exact absurd h (by decide)

theorem Idempotency.canonical_toValue {a b : Idempotency} (h : a.toValue.canonical = b.toValue.canonical) : a = b := by
  cases a <;> cases b <;> first | rfl | exact absurd h (by decide)

theorem canonicalItems_map {α : Type} (f : α → Value) (as : List α) :
    Value.canonicalItems (as.map f) = as.map fun a => (f a).canonical := by
  induction as with
  | nil => rfl
  | cons a as ih =>
    rw [List.map_cons, List.map_cons, Value.canonicalItems, ih]

theorem canonical_list {α : Type} {f : α → Value} (hf : ∀ a b, (f a).canonical = (f b).canonical → a = b) {as bs : List α}
    (h : (Value.list f as).canonical = (Value.list f bs).canonical) : as = bs := by
  rw [Value.list, Value.list, Value.canonical, Value.canonical, canonicalItems_map, canonicalItems_map] at h
  exact List.map_injective_iff.2 (fun a b => hf a b) (Value.array.inj h)

theorem InvocationClaim.canonical_toValue {a b : InvocationClaim} (h : a.toValue.canonical = b.toValue.canonical) : a = b := by
  obtain ⟨toolName, capabilities, effects, ⟨path⟩, idempotency⟩ := a
  obtain ⟨toolName', capabilities', effects', ⟨path'⟩, idempotency'⟩ := b
  simp only [InvocationClaim.toValue, Value.canonical, Value.canonicalFields] at h
  simp at h
  obtain ⟨hcapabilities, heffects, hidempotency, hpath, hname⟩ := h
  have hpath : path = path' := by
    cases path <;> cases path' <;> simp_all [Value.option, Value.canonical]
  rw [canonical_list (fun _ _ => Capability.canonical_toValue) hcapabilities,
    canonical_list (fun _ _ => Effect.canonical_toValue) heffects, Idempotency.canonical_toValue hidempotency, hpath, hname]

/-- What the digest of a preparation is taken of. -/
def PreparedCall.content (p : PreparedCall) : Value :=
  .object [("schema_version", .nat 2), ("call", p.call.toValue), ("tool_revision", .string p.toolRevision),
    ("claim", p.claim.toValue), ("requirements", p.requirements.toValue), ("execution_binding", p.executionBinding)]

/-- Two preparations of one content, up to the order of the members of their objects. -/
structure PreparedCall.SameContent (p q : PreparedCall) : Prop where
  id : p.call.id = q.call.id
  name : p.call.name = q.call.name
  arguments : p.call.arguments.canonical = q.call.arguments.canonical
  toolRevision : p.toolRevision = q.toolRevision
  claim : p.claim = q.claim
  requirements : p.requirements = q.requirements
  executionBinding : p.executionBinding.canonical = q.executionBinding.canonical
  digest : p.digest = q.digest

theorem PreparedCall.content_canonical {p q : PreparedCall} (h : p.content.canonical = q.content.canonical)
    (hdigest : p.digest = q.digest) : p.SameContent q := by
  obtain ⟨⟨id, name, arguments⟩, toolRevision, claim, ⟨processSandbox, maxOutputBytes, timeoutMs⟩, binding, digest⟩ := p
  obtain ⟨⟨id', name', arguments'⟩, toolRevision', claim', ⟨processSandbox', maxOutputBytes', timeoutMs'⟩, binding', digest'⟩ := q
  simp only [PreparedCall.content, ToolCall.toValue, ToolRequirements.toValue, Value.canonical, Value.canonicalFields, Value.nat] at h
  simp at h
  obtain ⟨⟨harguments, hid, hname⟩, hclaim, hbinding, ⟨hbytes, hsandbox, htimeout⟩, hrevision⟩ := h
  refine ⟨hid, hname, harguments, hrevision, InvocationClaim.canonical_toValue hclaim, ?_, hbinding, hdigest⟩
  dsimp only
  rw [hbytes, hsandbox, htimeout]

end Content

/-! ### What is bound -/

section Binding

variable {sha256 : Value → String}

theorem computeDigest_eq_ok {p : PreparedCall} {digest : String} (h : p.computeDigest sha256 = .ok digest) :
    digest = sha256 p.content.canonical := by
  simp only [PreparedCall.computeDigest, bind_eq_ok, reject_eq_ok, pure_eq_ok] at h
  obtain ⟨_, -, h⟩ := h
  exact h.symm

theorem digest_of_validate {p : PreparedCall} (h : p.validate sha256 = .ok ()) : p.digest = sha256 p.content.canonical := by
  simp only [PreparedCall.validate, bind_eq_ok, reject_eq_ok, ne_eq, not_not] at h
  obtain ⟨_, -, digest, hdigest, rfl⟩ := h
  exact computeDigest_eq_ok hdigest

theorem validate_eq_ok {grant : PreparedGrant} {p : PreparedCall} {revision : String} {scope : ToolExecutionScope}
    (h : grant.validate sha256 p revision scope = .ok ()) :
    p.validate sha256 = .ok () ∧ grant.scope = scope ∧ grant.preparedDigest = p.digest ∧ grant.policyRevision = revision := by
  simp only [PreparedGrant.validate, bind_eq_ok, reject_eq_ok, not_or, ne_eq, not_not] at h
  obtain ⟨_, hprepared, _, -, _, -, hscope, -, -, -, hdigest, hrevision, -⟩ := h
  exact ⟨hprepared, hscope, hdigest, hrevision⟩

/-- A limit that is positive, within the required one and within the policy's, if it has one. -/
structure LimitedBy (limit required : ℕ) (policy : Option ℕ) : Prop where
  pos : 0 < limit
  required : limit ≤ required
  policy : ∀ cap, policy = some cap → limit ≤ cap

theorem limitedBy_min {required : ℕ} {policy : Option ℕ} (h : ¬min (policy.getD required) required = 0) :
    LimitedBy (min (policy.getD required) required) required policy := by
  refine ⟨Nat.pos_of_ne_zero h, Nat.min_le_right _ _, ?_⟩
  rintro cap rfl
  exact Nat.min_le_left _ _

theorem issue_copies {prepared : PreparedCall} {decision : PolicyDecision} {approval : ApprovalEvidence}
    {scope : ToolExecutionScope} {grant : PreparedGrant}
    (h : PreparedGrant.issue sha256 prepared decision approval scope = .ok grant) :
    prepared.validate sha256 = .ok () ∧ grant.preparedDigest = prepared.digest ∧ ∃ maxOutputBytes timeoutMs,
      grant.constraints = { maxOutputBytes := some maxOutputBytes, timeoutMs := some timeoutMs } ∧
        LimitedBy maxOutputBytes prepared.requirements.maxOutputBytes decision.constraints.maxOutputBytes ∧
          LimitedBy timeoutMs prepared.requirements.timeoutMs decision.constraints.timeoutMs := by
  simp only [PreparedGrant.issue, bind_eq_ok, reject_eq_ok, pure_eq_ok, not_or] at h
  obtain ⟨_, hprepared, _, -, _, -, _, -, _, -, _, ⟨hbytes, htimeout⟩, rfl⟩ := h
  exact ⟨hprepared, rfl, _, _, rfl, limitedBy_min hbytes, limitedBy_min htimeout⟩

/-- **A grant binds one preparation, one scope and one revision.**  A grant that was
issued rests on a decision that was no denial, and on a confirmation for exactly this
preparation, scope and revision where approval was required; its limits are within both
the policy's and the preparation's; the executor accepts it for what it was issued for,
and for nothing else, as long as no other content has the digest of the preparation. -/
theorem issue_binds {prepared : PreparedCall} {decision : PolicyDecision} {approval : ApprovalEvidence}
    {scope : ToolExecutionScope} {grant : PreparedGrant}
    (hfree : ∀ value, sha256 value = sha256 prepared.content.canonical → value = prepared.content.canonical)
    (h : PreparedGrant.issue sha256 prepared decision approval scope = .ok grant) :
    decision.kind ≠ .deny ∧
      (decision.kind = .requireApproval → ∃ evidenceId,
        approval = .confirmed scope prepared.digest decision.policyVersion evidenceId) ∧
      (∃ maxOutputBytes timeoutMs,
        grant.constraints = { maxOutputBytes := some maxOutputBytes, timeoutMs := some timeoutMs } ∧
          LimitedBy maxOutputBytes prepared.requirements.maxOutputBytes decision.constraints.maxOutputBytes ∧
            LimitedBy timeoutMs prepared.requirements.timeoutMs decision.constraints.timeoutMs) ∧
      grant.validate sha256 prepared decision.policyVersion scope = .ok () ∧
      ∀ other revision scope', grant.validate sha256 other revision scope' = .ok () →
        revision = decision.policyVersion ∧ scope' = scope ∧ other.SameContent prepared := by
  obtain ⟨hkind, hevidence, hscope, hrevision, hvalid⟩ := issue_eq_ok h
  obtain ⟨hprepared, hdigest, hlimits⟩ := issue_copies h
  refine ⟨hkind, hevidence, hlimits, hvalid, fun other revision scope' hother => ?_⟩
  obtain ⟨hvalidOther, hscope', hdigest', hrevision'⟩ := validate_eq_ok hother
  have hsame : other.digest = prepared.digest := hdigest'.symm.trans hdigest
  have hcontent : other.content.canonical = prepared.content.canonical := by
    apply hfree
    rw [← digest_of_validate hvalidOther, ← digest_of_validate hprepared, hsame]
  exact ⟨hrevision'.symm.trans hrevision, hscope'.symm.trans hscope, PreparedCall.content_canonical hcontent hsame⟩

end Binding

/-! ### A reader that needs a confirmation -/

section Reader

def readerCall : PreparedCall where
  call := { id := "call_1", name := "fs_read", arguments := .object [("path", .string "a")] }
  toolRevision := "1"
  claim :=
    { toolName := "fs_read"
      capabilities := [.filesystemRead]
      effects := [.read]
      resource := { path := some "a" }
      idempotency := .idempotent }
  requirements := { processSandbox := false, maxOutputBytes := 64, timeoutMs := 500 }
  executionBinding := .null
  digest := "5b"

def readerDigest (value : Value) : String := if value = readerCall.content.canonical then "5b" else "00"

def readerScope : ToolExecutionScope where
  execution := { sessionId := "s", turnId := "t", executionId := "e" }
  stepId := "step_1"
  agentSnapshotDigest := none

def readerDecision : PolicyDecision where
  kind := .requireApproval
  reason := "ask"
  policyVersion := "v1"
  constraints := { maxOutputBytes := some 16, timeoutMs := none }

def readerGrant : PreparedGrant where
  scope := readerScope
  callId := "call_1"
  toolName := "fs_read"
  toolRevision := "1"
  preparedDigest := "5b"
  policyRevision := "v1"
  constraints := { maxOutputBytes := some 16, timeoutMs := some 500 }
  approvalEvidenceId := some "approval_1"

theorem readerDigest_free (value : Value) (h : readerDigest value = readerDigest readerCall.content.canonical) :
    value = readerCall.content.canonical := by
  by_contra hne
  rw [readerDigest, readerDigest, if_neg hne, if_pos rfl] at h
  exact absurd h (by decide)

theorem issue_binds_reader : PreparedGrant.issue readerDigest readerCall readerDecision
      (.confirmed readerScope "5b" "v1" "approval_1") readerScope = .ok readerGrant ∧
    ∀ other revision scope', readerGrant.validate readerDigest other revision scope' = .ok () →
      revision = "v1" ∧ scope' = readerScope ∧ other.SameContent readerCall := by
  have hissued : PreparedGrant.issue readerDigest readerCall readerDecision
      (.confirmed readerScope "5b" "v1" "approval_1") readerScope = .ok readerGrant := by decide +kernel
  obtain ⟨-, -, -, -, hbound⟩ := issue_binds readerDigest_free hissued
  exact ⟨hissued, hbound⟩

end Reader

end Policy
end Kolyan
