/-
# Retries are authorized on sound proofs

What `authorize_retry` read last is a whole moment of the execution: nothing in it
was received, cancelled or answered, the latest decision about every started
effect says that it was not committed, and the proof is its last fact
(`Retryable`).  The proof says which facts it was made from and leaves itself out,
so the same call on those facts finds it, makes the same one, and the coordinator
has its command already.
-/

import Kolyan.Ledger.Alone
import Kolyan.TaskDriver.Retry
import Kolyan.Tasks.Reissue

namespace Kolyan
namespace TaskDriver

open Checks Threads Ledger Tasks Driver OrderedMaps

section Effects

variable {codec : RetryCodec} {binding : AttemptBinding} {facts : List LedgerEvent}

/-- An effect that was started was not committed: the latest decision about it
is about this effect of this execution, and later than its start. -/
def NotCommitted (codec : RetryCodec) (execution : ExecutionRef) (facts : List LedgerEvent) (start : LedgerEvent) :
    Prop :=
  ∃ effectId decision request evidence, asStr (field "effect_id" start.payload) = some effectId ∧
    latestDecision facts effectId = some decision ∧
    codec.request (field "request" decision.payload) = .ok request ∧
    codec.resolution (field "resolution" decision.payload) = .ok (.notCommitted evidence) ∧
    request.execution = execution ∧ request.effectId = effectId ∧ start.cursor < decision.cursor

/-- **Facts of an execution that may be retried.** -/
structure Retryable (codec : RetryCodec) (execution : ExecutionRef) (facts : List LedgerEvent) : Prop where
  unreceived : ∀ event ∈ facts, event.kind ≠ .effectReceipt
  uncancelled : ∀ event ∈ facts, event.kind ≠ .turnCancelled ∧ event.kind ≠ .executionCancelled
  unanswered : ∀ event ∈ facts, event.kind = .turnCompleted → field "reason" event.payload ≠ .string "FinalAnswer"
  notCommitted : ∀ start ∈ facts, start.kind = .effectStarted → NotCommitted codec execution facts start

theorem startedEffects_eq_ok {started all : BTreeMap LedgerEvent} {events : List LedgerEvent}
    (h : startedEffects started events = .ok all) :
    (∀ (id : String) (event : LedgerEvent), started[id]? = some event → all[id]? = some event) ∧
      ∀ event ∈ events, event.kind = .effectStarted → ∃ id, startedId event = some id ∧ all[id]? = some event := by
  induction events generalizing started with
  | nil =>
    obtain rfl := Except.ok.inj h
    exact ⟨fun _ _ h => h, fun _ h => absurd h List.not_mem_nil⟩
  | cons event events ih =>
    rw [startedEffects] at h
    split_ifs at h with hkind
    · simp only [bind_eq_ok, expect_eq_ok, reject_eq_ok] at h
      obtain ⟨id, hid, _, hfresh, h⟩ := h
      obtain ⟨hkeeps, hrest⟩ := ih h
      refine ⟨fun k e he => hkeeps k e ?_, fun e he hstarted => ?_⟩
      · have hne : id ≠ k := fun heq => hfresh (heq ▸ mem_of_getElem? he)
        rw [getElem?_insert_of_ne hne]
        exact he
      · rcases List.mem_cons.1 he with rfl | he
        · exact ⟨id, hid, hkeeps id e getElem?_insert_self⟩
        · exact hrest e he hstarted
    · obtain ⟨hkeeps, hrest⟩ := ih h
      refine ⟨hkeeps, fun e he hstarted => ?_⟩
      rcases List.mem_cons.1 he with rfl | he
      · exact absurd hstarted hkind
      · exact hrest e he hstarted

theorem proveEffects_eq_ok {started : List (String × LedgerEvent)} {proofs : List ExecutionEvidence}
    (h : proveEffects codec binding facts started = .ok proofs) :
    ∀ p ∈ started, ∃ proof, proveEffect codec binding facts p.1 p.2 = .ok proof := by
  induction started generalizing proofs with
  | nil => exact fun _ hp => absurd hp List.not_mem_nil
  | cons p started ih =>
    simp only [proveEffects, bind_eq_ok] at h
    obtain ⟨proof, hproof, proofs', hproofs, _⟩ := h
    exact List.forall_mem_cons.2 ⟨⟨proof, hproof⟩, ih hproofs⟩

theorem checkDecision_eq_ok {effectId : String} {start decision : LedgerEvent}
    (h : checkDecision codec binding facts effectId start = .ok decision) :
    ∃ request evidence, latestDecision facts effectId = some decision ∧
      codec.request (field "request" decision.payload) = .ok request ∧
      codec.resolution (field "resolution" decision.payload) = .ok (.notCommitted evidence) ∧
      request.execution = binding.execution ∧ request.effectId = effectId ∧ start.cursor < decision.cursor := by
  simp only [checkDecision, bind_eq_ok, expect_eq_ok, mapError_eq_ok, reject_eq_ok, not_or, not_not, not_le] at h
  obtain ⟨found, hfound, request, hrequest, resolution, hresolution, _, ⟨hexecution, heffect, _, _, hlater⟩,
    evidence, hevidence, _, _, hdecision⟩ := h
  obtain rfl := pure_eq_ok.1 hdecision
  cases resolution with
  | notCommitted text =>
    exact ⟨request, text, hfound, hrequest, hresolution, ExecutionRef.toValue_inj.1 hexecution, heffect, hlater⟩
  | committed => cases hevidence
  | unknown => cases hevidence

theorem retryable_of_validated {taskId : String} {proofs : List ExecutionEvidence}
    (hmembership : validateMembership taskId binding facts = .ok ())
    (heffects : validateEffects codec binding facts = .ok proofs) :
    Retryable codec binding.execution facts := by
  simp only [validateMembership, bind_eq_ok, reject_eq_ok, Bool.not_eq_true, List.any_eq_false] at hmembership
  obtain ⟨_, _, _, _, _, _, hopen⟩ := hmembership
  simp only [validateEffects, bind_eq_ok, reject_eq_ok, Bool.not_eq_true, List.any_eq_false,
    decide_eq_true_eq] at heffects
  obtain ⟨_, hreceipts, started, hstarted, hproofs⟩ := heffects
  have hopen' : ∀ event ∈ facts, (event.kind ≠ .turnCancelled ∧ event.kind ≠ .executionCancelled) ∧
      (event.kind = .turnCompleted → field "reason" event.payload ≠ .string "FinalAnswer") := by
    intro event hevent
    have h : ¬closesRetry event = true := Bool.not_eq_true _ ▸ hopen event hevent
    simp only [closesRetry, Bool.or_eq_true, Bool.and_eq_true, decide_eq_true_eq, not_or, not_and] at h
    exact h
  refine ⟨hreceipts, fun event he => (hopen' event he).1, fun event he => (hopen' event he).2, ?_⟩
  intro start hstart hkind
  obtain ⟨id, hid, hentry⟩ := (startedEffects_eq_ok hstarted).2 start hstart hkind
  obtain ⟨proof, hproof⟩ := proveEffects_eq_ok hproofs (id, start)
    (Std.ExtTreeMap.mem_toList_iff_getElem?_eq_some.2 hentry)
  simp only [proveEffect, bind_eq_ok] at hproof
  obtain ⟨_, _, _, _, decision, hdecision, _⟩ := hproof
  obtain ⟨request, evidence, hfound, hrequest, hresolution, hexecution, heffect, hlater⟩ :=
    checkDecision_eq_ok hdecision
  have hnamed : asStr (field "effect_id" start.payload) = some id := (Option.filter_eq_some_iff.1 hid).1
  exact ⟨id, decision, request, evidence, hnamed, hfound, hrequest, hresolution, hexecution, heffect, hlater⟩

theorem Retryable.proven {execution : ExecutionRef} (h : Retryable codec execution facts) {proof : LedgerEvent}
    (hkind : proof.kind = .executionRetryAuthorized) : Retryable codec execution (facts ++ [proof]) := by
  have hmem : ∀ {p : LedgerEvent → Prop}, (∀ event ∈ facts, p event) → p proof → ∀ event ∈ facts ++ [proof], p event :=
    fun hfacts hproof event he => (List.mem_append.1 he).elim (hfacts event) fun he =>
      (List.mem_singleton.1 he).symm ▸ hproof
  have hsame : ∀ id, latestDecision (facts ++ [proof]) id = latestDecision facts id := by
    intro id
    have hnot : decides id proof = false := by simp [decides, hkind]
    rw [latestDecision, List.reverse_append, List.reverse_singleton, List.singleton_append,
      List.find?_cons_of_neg (by simp [hnot])]
    rfl
  refine ⟨hmem h.unreceived (by simp [hkind]), hmem h.uncancelled (by simp [hkind]),
    hmem h.unanswered (by simp [hkind]), hmem (fun start hstart hstarted => ?_) (by simp [hkind])⟩
  obtain ⟨id, decision, request, evidence, hid, hfound, hrest⟩ := h.notCommitted start hstart hstarted
  exact ⟨id, decision, request, evidence, hid, (hsame id).trans hfound, hrest⟩

end Effects

section Plans

variable {codec : RetryCodec} {taskId factId attemptId reason : String} {attempt : AttemptSnapshot}
variable {all : List LedgerEvent} {candidate : LedgerEvent}

theorem planProof_eq_ok (h : planProof codec taskId factId attemptId reason attempt all = .ok candidate) :
    Retryable codec attempt.binding.execution (inspected codec taskId factId attemptId all) ∧
      ∃ (proof : RetryProof) (last : LedgerEvent), candidate = proofFact codec taskId factId attemptId proof ∧
        proof.binding = attempt.binding ∧
        (inspected codec taskId factId attemptId all).getLast? = some last ∧
        proof.inspectedThrough = sourceRef attempt.binding last := by
  simp only [planProof, proveRetry, bind_eq_ok, pure_eq_ok, expect_eq_ok] at h
  obtain ⟨_, _, _, hmembership, _, _, last, hlast, proofs, heffects, rfl⟩ := h
  exact ⟨retryable_of_validated hmembership heffects, _, last, rfl, rfl, hlast, rfl⟩

theorem sameProof_eq_true {stored : LedgerEvent} : sameProof candidate stored = true ↔
    candidate = { stored with cursor := 0 } := by
  rw [sameProof, decide_eq_true_eq, eq_comm]

theorem inspected_proven {stored : LedgerEvent} (hid : stored.eventId = proofId codec taskId factId attemptId) :
    inspected codec taskId factId attemptId (inspected codec taskId factId attemptId all ++ [stored]) =
      inspected codec taskId factId attemptId all := by
  simp [inspected, List.filter_append, hid]

theorem storedProof_proven {stored : LedgerEvent} (hid : stored.eventId = proofId codec taskId factId attemptId) :
    storedProof codec taskId factId attemptId (inspected codec taskId factId attemptId all ++ [stored]) =
      some stored := by
  have hnone : (inspected codec taskId factId attemptId all).find?
      (fun event => event.eventId = proofId codec taskId factId attemptId) = none := by
    refine List.find?_eq_none.2 fun event he => ?_
    simpa [inspected] using (List.mem_filter.1 he).2
  rw [storedProof, List.find?_append, hnone, Option.none_or, List.find?_cons_of_pos (by simpa using hid)]

theorem planProof_again (h : planProof codec taskId factId attemptId reason attempt all = .ok candidate)
    {stored : LedgerEvent} (hid : stored.eventId = proofId codec taskId factId attemptId) {later : AttemptSnapshot}
    (hbinding : later.binding = attempt.binding) (hobservation : later.observation = attempt.observation) :
    planProof codec taskId factId attemptId reason later
      (inspected codec taskId factId attemptId all ++ [stored]) = .ok candidate := by
  obtain ⟨_, -, h⟩ := bind_eq_ok.1 h
  rw [planProof, reject_of_not (by simp [storedProof_proven hid]), ok_bind, inspected_proven hid]
  simpa only [proveRetry, checkObservation, hbinding, hobservation] using h

end Plans

end TaskDriver
end Kolyan
