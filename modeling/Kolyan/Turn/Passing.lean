/-
# What validation asks of a checkpoint

`TurnCheckpoint::validate` (`kolyan-core/src/turn/checkpoint.rs`) is a program of
some forty checks over calls, stages, history, budget and approvals.  Here it is a
proposition, in parts by the fields that each part reads (`Passes`), and
`validate_iff` says that these are all its checks, next to the size of the encoding.
Whoever writes some of the fields of a checkpoint has to show the parts that read
them, and keeps the others.
-/

import Kolyan.Turn.Pending

namespace Kolyan
namespace Turn

open Checks Policy

section Parts

variable (codec : Codec)

/-- Identity and name of a call are neither blank nor oversized. -/
def properCall (call : ToolCall) : Bool :=
  [call.id, call.name].all fun identity => !trimEmpty identity && decide (identity.utf8ByteSize ≤ 1024)

/-- The wait that a call is in. -/
def CheckpointCall.waitId? (item : CheckpointCall) : Option String :=
  match item.state with
  | .awaitingExternal wait _ => some wait.waitId
  | _ => none

/-- The waits of some calls. -/
def waitIds (items : List CheckpointCall) : List String := items.filterMap (·.waitId?)

/-- An authority that is valid in the scope and of the saved preparation. -/
structure CheckpointCall.Authorized (scope : ToolExecutionScope) (item : CheckpointCall) (authority : IssuedToolAuthority) :
    Prop where
  valid : authority.validate codec scope = .ok ()
  prepared : item.prepared = some authority.prepared

/-- What the state of a call has to say. -/
def CheckpointCall.StatePasses (scope : ToolExecutionScope) (item : CheckpointCall) : Prop :=
  match item.state with
  | .ready => item.charged = false ∧ item.prepared ≠ none
  | .completed result (some authority) => item.charged = true ∧ result.callId = item.call.id ∧
      item.Authorized codec scope authority ∧ authority.validateResult result = .ok ()
  | .completed result none => item.charged = true ∧ result.callId = item.call.id ∧ result.isError = true
  | .awaitingExternal wait issued => item.charged = true ∧ wait.validate = .ok () ∧ item.Authorized codec scope issued

/-- What a call has to be. -/
structure CheckpointCall.Passes (scope : ToolExecutionScope) (item : CheckpointCall) : Prop where
  proper : properCall item.call = true
  prepared : ∀ prepared, item.prepared = some prepared →
    prepared.validate codec.sha256 = .ok () ∧ prepared.call = item.call
  state : item.StatePasses codec scope

/-- The stages partition the calls; before the cursor the calls are completed, after
it they wait to run. -/
structure StagesPass (calls : List CheckpointCall) (stages : List (List String)) (stageIndex : ℕ) : Prop where
  nonempty : ∀ stage ∈ stages, stage ≠ []
  once : stages.flatten.Perm (calls.map (·.call.id))
  before : ∀ (i : ℕ) stage, stages[i]? = some stage → i < stageIndex → ∀ item ∈ calls, item.call.id ∈ stage →
    item.isCompleted = true
  after : ∀ (i : ℕ) stage, stages[i]? = some stage → stageIndex < i → ∀ item ∈ calls, item.call.id ∈ stage →
    item.isReady = true

/-- What an approval has to be. -/
structure CheckpointApproval.Passes (scope : ToolExecutionScope) (calls : List CheckpointCall)
    (approval : CheckpointApproval) : Prop where
  identity : identifier approval.approvalId = .ok ()
  scope : approval.scope = scope
  revision : trimEmpty approval.policyRevision = false
  bound : ∃ item, calls.find? (·.call.id = approval.prepared.call.id) = some item ∧ item.prepared = some approval.prepared
  prepared : approval.prepared.validate codec.sha256 = .ok ()
  evidence : ∀ id, approval.evidenceId = some id → identifier id = .ok ()

/-- Two approvals are told apart by their identities and by their calls. -/
def CheckpointApproval.Differs (a b : CheckpointApproval) : Prop :=
  a.approvalId ≠ b.approvalId ∧ a.prepared.call.id ≠ b.prepared.call.id

/-- **The frame of a checkpoint**: its Steps, its history and its limits, which stay
what they are once the batch is there. -/
structure TurnCheckpoint.Framed (checkpoint : TurnCheckpoint) : Prop where
  scope : checkpoint.scope.validate = .ok ()
  identity : identifier checkpoint.checkpointId = .ok ()
  schema : checkpoint.schemaVersion = 1
  next : checkpoint.nextStepIndex = checkpoint.steps.length
  steps_le : checkpoint.steps.length ≤ checkpoint.budget.maxSteps
  input_le : checkpoint.inputMessageCount ≤ checkpoint.modelRequest.messages.length
  timeout : checkpoint.budget.toolTimeoutMs ≠ some 0
  last : ∃ last, checkpoint.steps.getLast? = some last ∧ last.stepId = checkpoint.scope.stepId ∧
    last.outcome = .toolCalls ∧ toolCalls last.response.content = checkpoint.calls.map (·.call)
  names : ∀ index step, checkpoint.steps[index]? = some step →
    step.stepId = stepName checkpoint.scope.execution.turnId index
  history : checkHistory checkpoint.modelRequest.messages checkpoint.inputMessageCount 0 checkpoint.steps.dropLast =
    .ok (checkpoint.modelRequest.messages.length, checkpoint.budget.priorToolCallsUsed)
  fits : checkpoint.budget.priorToolCallsUsed + checkpoint.calls.length < 2 ^ 64
  limit : ∀ limit, checkpoint.budget.maxToolCalls = some limit →
    checkpoint.budget.priorToolCallsUsed + checkpoint.calls.length ≤ limit

/-- **What a checkpoint has to be to pass validation**, its size apart. -/
structure TurnCheckpoint.Passes (checkpoint : TurnCheckpoint) : Prop where
  framed : checkpoint.Framed
  batch : checkpoint.calls ≠ []
  calls : ∀ item ∈ checkpoint.calls, item.Passes codec checkpoint.scope
  unique : (checkpoint.calls.map (·.call.id)).Nodup
  waits : (waitIds checkpoint.calls).Nodup
  cursor : checkpoint.stageIndex ≤ checkpoint.stages.length
  staged : StagesPass checkpoint.calls checkpoint.stages checkpoint.stageIndex
  used : checkpoint.budget.toolCallsUsed = checkpoint.budget.priorToolCallsUsed + charged checkpoint.calls
  approvals : ∀ approval ∈ checkpoint.approvals, approval.Passes codec checkpoint.scope checkpoint.calls
  apart : checkpoint.approvals.Pairwise CheckpointApproval.Differs

end Parts

section Calls

variable {codec : Codec} {checkpoint : TurnCheckpoint} {item : CheckpointCall} {items : List CheckpointCall}

theorem checkIdentities_iff : checkIdentities item = .ok () ↔ properCall item.call = true := by
  rw [checkIdentities, reject_eq_ok, properCall]
  simp

theorem checkPreparation_iff : checkPreparation codec item = .ok () ↔
    ∀ prepared, item.prepared = some prepared → prepared.validate codec.sha256 = .ok () ∧ prepared.call = item.call := by
  refine ⟨checkPreparation_eq_ok, fun h => ?_⟩
  unfold checkPreparation
  cases hprepared : item.prepared with
  | none => rfl
  | some prepared =>
    obtain ⟨hvalid, hcall⟩ := h prepared hprepared
    exact bind_eq_ok.2 ⟨_, mapError_eq_ok.2 hvalid, reject_of_not (not_not.2 hcall)⟩

theorem validateAuthority_iff {authority : IssuedToolAuthority} :
    checkpoint.validateAuthority codec item authority = .ok () ↔ item.Authorized codec checkpoint.scope authority := by
  simp only [TurnCheckpoint.validateAuthority, bind_eq_ok, Unique.exists_iff, PUnit.default_eq_unit, reject_eq_ok, not_not]
  exact ⟨fun h => ⟨h.1, h.2⟩, fun h => ⟨h.valid, h.prepared⟩⟩

/-- **The check of one state**: the wait of the call has to be a new one. -/
theorem checkState_iff {waits waits' : List String} : checkpoint.checkState codec waits item = .ok waits' ↔
    item.StatePasses codec checkpoint.scope ∧ (∀ id ∈ item.waitId?, id ∉ waits) ∧ waits' = item.waitId?.toList ++ waits := by
  obtain ⟨call, prepared, charged, state⟩ := item
  unfold TurnCheckpoint.checkState CheckpointCall.StatePasses CheckpointCall.waitId?
  cases state with
  | ready =>
    simp only [bind_eq_ok, Unique.exists_iff, reject_eq_ok, pure_eq_ok, not_or, Bool.not_eq_true]
    constructor
    · rintro ⟨h, rfl⟩
      exact ⟨h, fun _ hid => (by cases hid), rfl⟩
    · rintro ⟨h, -, rfl⟩
      exact ⟨h, rfl⟩
  | completed result issued =>
    cases issued with
    | none =>
      simp only [bind_eq_ok, Unique.exists_iff, reject_eq_ok, pure_eq_ok, not_or, Bool.not_eq_false, not_not]
      constructor
      · rintro ⟨⟨hcharged, hid⟩, herror, rfl⟩
        exact ⟨⟨hcharged, hid, herror⟩, fun _ hwait => (by cases hwait), rfl⟩
      · rintro ⟨⟨hcharged, hid, herror⟩, -, rfl⟩
        exact ⟨⟨hcharged, hid⟩, herror, rfl⟩
    | some issued =>
      simp only [bind_eq_ok, Unique.exists_iff, PUnit.default_eq_unit, reject_eq_ok, pure_eq_ok, not_or, Bool.not_eq_false, not_not, validateAuthority_iff]
      constructor
      · rintro ⟨⟨hcharged, hid⟩, hauthority, hresult, rfl⟩
        exact ⟨⟨hcharged, hid, hauthority, hresult⟩, fun _ hwait => (by cases hwait), rfl⟩
      · rintro ⟨⟨hcharged, hid, hauthority, hresult⟩, -, rfl⟩
        exact ⟨⟨hcharged, hid⟩, hauthority, hresult, rfl⟩
  | awaitingExternal wait issued =>
    simp only [bind_eq_ok, Unique.exists_iff, PUnit.default_eq_unit, reject_eq_ok, pure_eq_ok, Bool.not_eq_false, Bool.not_eq_true, validateAuthority_iff]
    constructor
    · rintro ⟨hcharged, hwait, hnew, hauthority, rfl⟩
      refine ⟨⟨hcharged, hwait, hauthority⟩, fun id hid => ?_, rfl⟩
      obtain rfl := Option.some.inj hid
      simpa using hnew
    · rintro ⟨⟨hcharged, hwait, hauthority⟩, hnew, rfl⟩
      refine ⟨hcharged, hwait, ?_, hauthority, rfl⟩
      simpa using hnew _ rfl

theorem checkCalls_iff {ids waits : List String} : checkpoint.checkCalls codec ids waits items = .ok () ↔
    (∀ item ∈ items, item.Passes codec checkpoint.scope) ∧ (items.map (·.call.id)).Nodup ∧
      (∀ item ∈ items, item.call.id ∉ ids) ∧ (waitIds items).Nodup ∧ ∀ id ∈ waitIds items, id ∉ waits := by
  induction items generalizing ids waits with
  | nil => simp [TurnCheckpoint.checkCalls, waitIds]
  | cons item items ih =>
    have hwaits : waitIds (item :: items) = item.waitId?.toList ++ waitIds items := by
      rw [waitIds, List.filterMap_cons]
      cases item.waitId? with
      | none => rfl
      | some id => rfl
    simp only [TurnCheckpoint.checkCalls, bind_eq_ok, Unique.exists_iff, PUnit.default_eq_unit, checkIdentities_iff, checkPreparation_iff, checkState_iff,
      reject_eq_ok, ih, hwaits]
    constructor
    · rintro ⟨hproper, hfresh, hprepared, _, ⟨hstate, hnew, rfl⟩, hitems, hunique, hids, hnodup, hother⟩
      have hfresh : item.call.id ∉ ids := by simpa using hfresh
      refine ⟨List.forall_mem_cons.2 ⟨⟨hproper, hprepared, hstate⟩, hitems⟩, List.nodup_cons.2 ⟨fun hmem => ?_, hunique⟩,
        List.forall_mem_cons.2 ⟨hfresh, fun other hmem hold => hids other hmem (List.mem_cons_of_mem _ hold)⟩, ?_, ?_⟩
      · obtain ⟨other, hmem, hid⟩ := List.mem_map.1 hmem
        exact hids other hmem (hid ▸ List.mem_cons_self ..)
      · refine List.nodup_append.2 ⟨?_, hnodup, fun id hid other hmem heq => ?_⟩
        · cases item.waitId? with
          | none => exact List.nodup_nil
          | some id => exact List.nodup_singleton id
        · exact hother other hmem (List.mem_append_left _ (heq ▸ hid))
      · intro id hid hold
        rcases List.mem_append.1 hid with hid | hid
        · exact hnew id (Option.mem_toList.1 hid) hold
        · exact hother id hid (List.mem_append_right _ hold)
    · rintro ⟨hitems, hunique, hids, hnodup, hother⟩
      obtain ⟨⟨hproper, hprepared, hstate⟩, hitems⟩ := List.forall_mem_cons.1 hitems
      obtain ⟨hfresh, hids⟩ := List.forall_mem_cons.1 hids
      obtain ⟨hhead, hunique⟩ := List.nodup_cons.1 hunique
      obtain ⟨-, hnodup, hapart⟩ := List.nodup_append.1 hnodup
      refine ⟨hproper, by simpa using hfresh, hprepared, _, ⟨hstate, fun id hid hold => ?_, rfl⟩, hitems, hunique,
        fun other hmem hold => ?_, hnodup, fun id hid hold => ?_⟩
      · exact hother id (List.mem_append_left _ (Option.mem_toList.2 hid)) hold
      · rcases List.mem_cons.1 hold with hsame | hold
        · exact hhead (List.mem_map.2 ⟨other, hmem, hsame⟩)
        · exact hids other hmem hold
      · rcases List.mem_append.1 hold with hold | hold
        · exact hapart id hold id hid rfl
        · exact hother id (List.mem_append_right _ hid) hold

end Calls

section Stages

variable {codec : Codec} {checkpoint : TurnCheckpoint} {calls : List CheckpointCall} {stages : List (List String)}
variable {index : ℕ}

theorem exists_of_mem_stage (h : stages.flatten.Perm (calls.map (·.call.id))) {stage : List String}
    (hstage : stage ∈ stages) {id : String} (hid : id ∈ stage) : ∃ item ∈ calls, item.call.id = id :=
  List.mem_map.1 (h.mem_iff.1 (List.mem_flatten_of_mem hstage hid))

theorem checkStages_iff (hunique : (checkpoint.calls.map (·.call.id)).Nodup) : checkpoint.checkStages = .ok () ↔
    StagesPass checkpoint.calls checkpoint.stages checkpoint.stageIndex := by
  simp only [TurnCheckpoint.checkStages, bind_eq_ok, Unique.exists_iff, reject_eq_ok, not_or, not_not]
  constructor
  · rintro ⟨⟨hnonempty, hlength, hforth, hback⟩, hprogress⟩
    have hperm : checkpoint.stages.flatten.Perm (checkpoint.calls.map (·.call.id)) := by
      refine ((List.subperm_of_subset hunique fun id hid => ?_).perm_of_length_le ?_).symm
      · simpa using List.all_eq_true.1 hback id hid
      · rw [List.length_map, hlength]
    have hstage : ∀ (i : ℕ) stage, checkpoint.stages[i]? = some stage → ∀ item ∈ checkpoint.calls,
        item.call.id ∈ stage → (checkpoint.stageIndex ≤ i ∨ item.isCompleted = true) ∧
          (i ≤ checkpoint.stageIndex ∨ item.isReady = true) := by
      intro i stage hi item hitem hid
      have hat : checkpoint.atStage i item.call.id = true := by
        by_contra hnot
        refine hprogress (List.any_eq_true.2 ⟨(stage, i), List.mk_mem_zipIdx_iff_getElem?.2 hi, ?_⟩)
        rw [Bool.not_eq_true', List.all_eq_false]
        exact ⟨item.call.id, hid, hnot⟩
      rw [TurnCheckpoint.atStage, find_of_mem hunique hitem, Option.any_some] at hat
      simpa using hat
    refine ⟨fun stage hmem hempty => hnonempty (List.any_eq_true.2 ⟨stage, hmem, ?_⟩), hperm,
      fun i stage hi hlt item hitem hid => ?_, fun i stage hi hlt item hitem hid => ?_⟩
    · rw [hempty]
      rfl
    · exact (hstage i stage hi item hitem hid).1.resolve_left (by omega)
    · exact (hstage i stage hi item hitem hid).2.resolve_left (by omega)
  · rintro ⟨hnonempty, hperm, hbefore, hafter⟩
    refine ⟨⟨fun hempty => ?_, ?_, ?_, ?_⟩, fun hprogress => ?_⟩
    · obtain ⟨stage, hmem, hstage⟩ := List.any_eq_true.1 hempty
      exact hnonempty stage hmem (List.isEmpty_iff.1 hstage)
    · rw [hperm.length_eq, List.length_map]
    · refine List.all_eq_true.2 fun id hid => ?_
      simpa using hperm.mem_iff.1 hid
    · refine List.all_eq_true.2 fun id hid => ?_
      simpa using hperm.mem_iff.2 hid
    · obtain ⟨⟨stage, i⟩, hi, hnot⟩ := List.any_eq_true.1 hprogress
      replace hi := List.mk_mem_zipIdx_iff_getElem?.1 hi
      rw [Bool.not_eq_true', List.all_eq_false] at hnot
      obtain ⟨id, hid, hnot⟩ := hnot
      obtain ⟨item, hitem, rfl⟩ := exists_of_mem_stage hperm (List.mem_of_getElem? hi) hid
      refine hnot ?_
      rw [TurnCheckpoint.atStage, find_of_mem hunique hitem, Option.any_some, Bool.and_eq_true, Bool.or_eq_true,
        Bool.or_eq_true, decide_eq_true_eq, decide_eq_true_eq]
      refine ⟨(Nat.lt_or_ge i checkpoint.stageIndex).symm.imp_right fun hlt => ?_,
        (Nat.lt_or_ge checkpoint.stageIndex i).symm.imp_right fun hlt => ?_⟩
      · exact hbefore i stage hi hlt item hitem hid
      · exact hafter i stage hi hlt item hitem hid

end Stages

section Approvals

variable {codec : Codec} {checkpoint : TurnCheckpoint} {approval : CheckpointApproval}
variable {seen approvals : List CheckpointApproval}

theorem evidence_eq_ok : (match approval.evidenceId with
    | none => .ok ()
    | some id => identifier id : Except CheckpointError Unit) = .ok () ↔
    ∀ id, approval.evidenceId = some id → identifier id = .ok () := by
  cases approval.evidenceId with
  | none => simp
  | some id => simp

/-- **The check of one approval**: it differs from those that were seen. -/
theorem checkApproval_iff : checkpoint.checkApproval codec seen approval = .ok () ↔
    approval.Passes codec checkpoint.scope checkpoint.calls ∧ ∀ other ∈ seen, other.Differs approval := by
  have hdiffers : ¬(seen.any (·.approvalId = approval.approvalId) = true) ∧
      ¬(seen.any (·.prepared.call.id = approval.prepared.call.id) = true) ↔ ∀ other ∈ seen, other.Differs approval := by
    simp only [List.any_eq_true, decide_eq_true_eq, not_exists, not_and]
    exact ⟨fun h other hother => ⟨h.1 other hother, h.2 other hother⟩,
      fun h => ⟨fun other hother => (h other hother).1, fun other hother => (h other hother).2⟩⟩
  simp only [TurnCheckpoint.checkApproval, bind_eq_ok, Unique.exists_iff, PUnit.default_eq_unit, reject_eq_ok, expect_eq_ok, mapError_eq_ok, not_or, not_not]
  constructor
  · rintro ⟨hidentity, ⟨hids, hcalls, hscope, hrevision⟩, item, hfind, hprepared, hvalid, hid⟩
    exact ⟨⟨hidentity, hscope, Bool.not_eq_true _ ▸ hrevision, ⟨item, hfind, hprepared⟩, hvalid, evidence_eq_ok.1 hid⟩,
      hdiffers.1 ⟨hids, hcalls⟩⟩
  · rintro ⟨⟨hidentity, hscope, hrevision, ⟨item, hfind, hprepared⟩, hvalid, hid⟩, hothers⟩
    obtain ⟨hids, hcalls⟩ := hdiffers.2 hothers
    exact ⟨hidentity, ⟨hids, hcalls, hscope, Bool.not_eq_true _ ▸ hrevision⟩, item, hfind, hprepared, hvalid,
      evidence_eq_ok.2 hid⟩

theorem checkApprovals_iff : checkpoint.checkApprovals codec seen approvals = .ok () ↔
    (∀ approval ∈ approvals, approval.Passes codec checkpoint.scope checkpoint.calls) ∧
      approvals.Pairwise CheckpointApproval.Differs ∧
      ∀ approval ∈ approvals, ∀ other ∈ seen, other.Differs approval := by
  induction approvals generalizing seen with
  | nil => simp [TurnCheckpoint.checkApprovals]
  | cons approval approvals ih =>
    simp only [TurnCheckpoint.checkApprovals, bind_eq_ok, Unique.exists_iff, PUnit.default_eq_unit, checkApproval_iff, ih, List.forall_mem_cons, List.pairwise_cons]
    constructor
    · rintro ⟨⟨hone, hnew⟩, hall, hpairwise, hseen⟩
      exact ⟨⟨hone, hall⟩, ⟨fun other hother => (hseen other hother).1, hpairwise⟩, hnew,
        fun other hother => (hseen other hother).2⟩
    · rintro ⟨⟨hone, hall⟩, ⟨hhead, hpairwise⟩, hnew, hseen⟩
      exact ⟨⟨hone, hnew⟩, hall, hpairwise, fun other hother => ⟨hhead other hother, hseen other hother⟩⟩

end Approvals

section Whole

variable {codec : Codec} {checkpoint : TurnCheckpoint} {scope : ToolExecutionScope}

theorem checkedAdd_of_lt {a b : ℕ} (h : a + b < 2 ^ 64) : checkedAdd a b = some (a + b) := if_pos h

theorem budgetAgrees_iff : checkpoint.budgetAgrees = true ↔
    checkpoint.budget.toolCallsUsed = checkpoint.budget.priorToolCallsUsed + charged checkpoint.calls ∧
      checkpoint.budget.priorToolCallsUsed + checkpoint.calls.length < 2 ^ 64 ∧
      ∀ limit, checkpoint.budget.maxToolCalls = some limit →
        checkpoint.budget.priorToolCallsUsed + checkpoint.calls.length ≤ limit := by
  have hle : charged checkpoint.calls ≤ checkpoint.calls.length := List.countP_le_length
  simp only [TurnCheckpoint.budgetAgrees, Bool.and_eq_true, decide_eq_true_eq]
  constructor
  · rintro ⟨⟨hused, -⟩, hfits⟩
    obtain ⟨requested, hrequested, hlimit⟩ := (Option.any_eq_true _ _).1 hfits
    have hsum := checkedAdd_eq_some hrequested
    rw [checkedAdd] at hrequested
    split_ifs at hrequested with hlt
    refine ⟨checkedAdd_eq_some hused, hlt, fun limit hmax => ?_⟩
    rw [hmax, Option.all_some, decide_eq_true_eq] at hlimit
    omega
  · rintro ⟨hused, hlt, hlimit⟩
    rw [checkedAdd_of_lt (by omega), checkedAdd_of_lt hlt, hused]
    refine ⟨⟨rfl, ?_⟩, ?_⟩
    · cases hmax : checkpoint.budget.maxToolCalls with
      | none => rfl
      | some limit =>
        have := hlimit limit hmax
        exact decide_eq_true (by omega)
    · cases hmax : checkpoint.budget.maxToolCalls with
      | none => rfl
      | some limit => exact decide_eq_true (hlimit limit hmax)

/-- **Validation asks for the size and for what passes**, and for nothing else. -/
theorem validate_iff : checkpoint.validate codec scope = .ok () ↔
    codec.checkpointLen checkpoint ≤ 16 * 1024 * 1024 ∧ checkpoint.scope = scope ∧ checkpoint.Passes codec := by
  simp only [TurnCheckpoint.validate, bind_eq_ok, Unique.exists_iff, PUnit.default_eq_unit, reject_eq_ok, expect_eq_ok, mapError_eq_ok, not_or, not_not, not_lt,
    Bool.not_eq_false, checkCalls_iff, checkApprovals_iff, budgetAgrees_iff]
  constructor
  · rintro ⟨hsize, hscope, rfl, hidentity, ⟨hschema, -, hnext, hsteps, hinput, hbatch, -, hcursor, htimeout⟩,
      last, hlast, ⟨hstep, houtcome⟩, hnames, hcalls, ⟨hitems, hunique, -, hwaits, -⟩, hstages,
      ⟨boundary, historical⟩, hhistory, rfl, rfl, ⟨hused, hfits, hlimit⟩, happrovals, hapart, -⟩
    refine ⟨hsize, rfl, ⟨⟨hscope, hidentity, hschema, hnext, by omega, by omega, htimeout,
      ⟨last, hlast, hstep, houtcome, hcalls⟩, fun index step hindex => ?_, hhistory, hfits, hlimit⟩, hbatch, hitems, hunique,
      hwaits, by omega, (checkStages_iff hunique).1 hstages, hused, happrovals, hapart⟩⟩
    by_contra hname
    refine hnames (List.any_eq_true.2 ⟨(step, index), List.mk_mem_zipIdx_iff_getElem?.2 hindex, ?_⟩)
    exact decide_eq_true hname
  · rintro ⟨hsize, rfl, h⟩
    obtain ⟨last, hlast, hstep, houtcome, hcalls⟩ := h.framed.last
    have hsteps : checkpoint.steps ≠ [] := fun hnil => by rw [hnil] at hlast; cases hlast
    have hstages : checkpoint.stages ≠ [] := fun hnil => by
      have hperm := h.staged.once
      rw [hnil, List.flatten_nil] at hperm
      exact h.batch (List.map_eq_nil_iff.1 hperm.symm.eq_nil)
    refine ⟨hsize, h.framed.scope, rfl, h.framed.identity, ⟨h.framed.schema, hsteps, h.framed.next,
      h.framed.steps_le, h.framed.input_le, h.batch, hstages, h.cursor, h.framed.timeout⟩, last, hlast, ⟨hstep, houtcome⟩, fun hnames => ?_, hcalls,
      ⟨h.calls, h.unique, fun _ _ => List.not_mem_nil, h.waits, fun _ _ => List.not_mem_nil⟩,
      (checkStages_iff h.unique).2 h.staged, (_, _), h.framed.history, rfl, rfl,
      ⟨h.used, h.framed.fits, h.framed.limit⟩, h.approvals, h.apart, fun _ _ _ hmem => absurd hmem List.not_mem_nil⟩
    obtain ⟨⟨step, index⟩, hindex, hname⟩ := List.any_eq_true.1 hnames
    exact of_decide_eq_true hname (h.framed.names index step (List.mk_mem_zipIdx_iff_getElem?.1 hindex))

end Whole

end Turn
end Kolyan
