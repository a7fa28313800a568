/-
# What a valid checkpoint carries

A checkpoint that passes `TurnCheckpoint::validate` is the batch of its last
Step, with every call accounted for.  `Valid` collects what the invariants of
the engine use of it; `validate_eq_ok` is the only place that opens the
validator.
-/

import Kolyan.Turn.Checkpoint

namespace Kolyan
namespace Turn

open Checks Policy

/-- How many tool calls some Steps made. -/
def callCount (steps : List StepResult) : ℕ :=
  (steps.map fun step => (toolCalls step.response.content).length).sum

/-- What validation establishes of one call. -/
structure ItemValid (codec : Codec) (item : CheckpointCall) : Prop where
  prepared : ∀ prepared, item.prepared = some prepared →
    prepared.validate codec.sha256 = .ok () ∧ prepared.call = item.call
  ready : item.isReady = true → item.charged = false ∧ item.prepared.isSome = true
  charged : item.isReady = false → item.charged = true
  result : ∀ result, item.result? = some result → result.callId = item.call.id

/-- What validation establishes of a checkpoint. -/
structure Valid (codec : Codec) (checkpoint : TurnCheckpoint) : Prop where
  scope : checkpoint.scope.validate = .ok ()
  steps_le : checkpoint.steps.length ≤ checkpoint.budget.maxSteps
  last : ∃ last, checkpoint.steps.getLast? = some last ∧ last.stepId = checkpoint.scope.stepId ∧
    last.outcome = .toolCalls ∧ toolCalls last.response.content = checkpoint.calls.map (·.call)
  names : ∀ index step, checkpoint.steps[index]? = some step →
    step.stepId = stepName checkpoint.scope.execution.turnId index
  unique : (checkpoint.calls.map (·.call.id)).Nodup
  items : ∀ item ∈ checkpoint.calls, ItemValid codec item
  prior : checkpoint.budget.priorToolCallsUsed = callCount checkpoint.steps.dropLast
  used : checkpoint.budget.toolCallsUsed =
    checkpoint.budget.priorToolCallsUsed + charged checkpoint.calls
  fits : ∀ limit, checkpoint.budget.maxToolCalls = some limit →
    checkpoint.budget.priorToolCallsUsed + checkpoint.calls.length ≤ limit
  approvals : ∀ approval ∈ checkpoint.approvals, approval.scope = checkpoint.scope ∧
    ∃ item, checkpoint.calls.find? (·.call.id = approval.prepared.call.id) = some item ∧
      item.prepared = some approval.prepared

variable {codec : Codec} {checkpoint : TurnCheckpoint}

theorem checkState_eq_ok {waits waits' : List String} {item : CheckpointCall}
    (h : checkpoint.checkState codec waits item = .ok waits') :
    (item.isReady = true → item.charged = false ∧ item.prepared.isSome = true) ∧
      (item.isReady = false → item.charged = true) ∧
      ∀ result, item.result? = some result → result.callId = item.call.id := by
  obtain ⟨call, prepared, charged, state⟩ := item
  unfold TurnCheckpoint.checkState at h
  cases state with
  | ready =>
    simp only [bind_eq_ok, reject_eq_ok, not_or] at h
    obtain ⟨-, ⟨hcharged, hprepared⟩, -⟩ := h
    refine ⟨fun _ => ⟨by simpa using hcharged, ?_⟩, fun hready => (by cases hready), fun _ hr => by cases hr⟩
    exact Option.isSome_iff_ne_none.2 hprepared
  | completed result issued =>
    cases issued with
    | none =>
      simp only [bind_eq_ok, reject_eq_ok, not_or, Bool.not_eq_false, not_not] at h
      obtain ⟨-, ⟨hcharged, hid⟩, -⟩ := h
      refine ⟨fun hready => (by cases hready), fun _ => hcharged, fun r hr => ?_⟩
      exact Option.some.inj hr ▸ hid
    | some issued =>
      simp only [bind_eq_ok, reject_eq_ok, not_or, Bool.not_eq_false, not_not] at h
      obtain ⟨-, ⟨hcharged, hid⟩, -⟩ := h
      refine ⟨fun hready => (by cases hready), fun _ => hcharged, fun r hr => ?_⟩
      exact Option.some.inj hr ▸ hid
  | awaitingExternal wait issued =>
    simp only [bind_eq_ok, reject_eq_ok, Bool.not_eq_false] at h
    obtain ⟨-, hcharged, -⟩ := h
    exact ⟨fun hready => (by cases hready), fun _ => hcharged, fun r hr => by cases hr⟩

theorem checkPreparation_eq_ok {item : CheckpointCall} (h : checkPreparation codec item = .ok ()) :
    ∀ prepared, item.prepared = some prepared →
      prepared.validate codec.sha256 = .ok () ∧ prepared.call = item.call := by
  intro prepared hprepared
  simp only [checkPreparation, hprepared, bind_eq_ok, mapError_eq_ok, reject_eq_ok, not_not] at h
  obtain ⟨_, hvalid, hcall⟩ := h
  exact ⟨hvalid, hcall⟩

theorem checkCalls_eq_ok {ids waits : List String} {items : List CheckpointCall}
    (h : checkpoint.checkCalls codec ids waits items = .ok ()) :
    (items.map (·.call.id)).Nodup ∧ (∀ item ∈ items, item.call.id ∉ ids) ∧
      ∀ item ∈ items, ItemValid codec item := by
  induction items generalizing ids waits with
  | nil => exact ⟨List.nodup_nil, fun _ hmem => (nomatch hmem), fun _ hmem => nomatch hmem⟩
  | cons item items ih =>
    simp only [TurnCheckpoint.checkCalls, bind_eq_ok, reject_eq_ok] at h
    obtain ⟨-, -, -, hfresh, _, hprepared, waits', hstate, hrest⟩ := h
    obtain ⟨hnodup, hids, hvalid⟩ := ih hrest
    obtain ⟨hready, hcharged, hresult⟩ := checkState_eq_ok hstate
    have hfresh : item.call.id ∉ ids := by simpa using hfresh
    refine ⟨List.nodup_cons.2 ⟨fun hmem => ?_, hnodup⟩, List.forall_mem_cons.2 ⟨hfresh, ?_⟩,
      List.forall_mem_cons.2 ⟨⟨checkPreparation_eq_ok hprepared, hready, hcharged, hresult⟩, hvalid⟩⟩
    · obtain ⟨other, hother, hid⟩ := List.mem_map.1 hmem
      exact hids other hother (hid ▸ List.mem_cons_self ..)
    · exact fun other hother hmem => hids other hother (List.mem_cons_of_mem _ hmem)

theorem checkPairs_eq_ok {messages : List Message} {boundary calls boundary' calls' : ℕ}
    {batch : List ToolCall} (h : checkPairs messages boundary calls batch = .ok (boundary', calls')) :
    calls' = calls + batch.length := by
  induction batch generalizing boundary calls with
  | nil => exact (Prod.mk.inj (Except.ok.inj h)).2.symm
  | cons call batch ih =>
    simp only [checkPairs, bind_eq_ok, expect_eq_ok] at h
    obtain ⟨next, hnext, _, -, _, -, hrest⟩ := h
    have hsum := ih hrest
    rw [checkedAdd] at hnext
    split_ifs at hnext with hlt
    have hone := Option.some.inj hnext
    rw [List.length_cons]
    omega

theorem toolCallBatch_eq_ok {calls batch : List ToolCall} (h : toolCallBatch calls = .ok batch) :
    batch = calls ∧ (calls.map (·.id)).Nodup := by
  have hloop : ∀ {seen : List String} {calls : List ToolCall}, checkUnique seen calls = .ok () →
      (calls.map (·.id)).Nodup ∧ ∀ call ∈ calls, call.id ∉ seen := by
    intro seen calls
    induction calls generalizing seen with
    | nil => exact fun _ => ⟨List.nodup_nil, fun _ hmem => nomatch hmem⟩
    | cons call calls ih =>
      intro h
      simp only [checkUnique, bind_eq_ok, reject_eq_ok] at h
      obtain ⟨_, hfresh, hrest⟩ := h
      obtain ⟨hnodup, hseen⟩ := ih hrest
      refine ⟨List.nodup_cons.2 ⟨fun hmem => ?_, hnodup⟩, List.forall_mem_cons.2 ⟨by simpa using hfresh, ?_⟩⟩
      · obtain ⟨other, hother, hid⟩ := List.mem_map.1 hmem
        exact hseen other hother (hid ▸ List.mem_cons_self ..)
      · exact fun other hother hmem => hseen other hother (List.mem_cons_of_mem _ hmem)
  simp only [toolCallBatch, bind_eq_ok, pure_eq_ok] at h
  obtain ⟨_, -, _, hunique, rfl⟩ := h
  exact ⟨rfl, (hloop hunique).1⟩

theorem checkHistory_eq_ok {messages : List Message} {boundary calls boundary' calls' : ℕ}
    {steps : List StepResult} (h : checkHistory messages boundary calls steps = .ok (boundary', calls')) :
    calls' = calls + callCount steps := by
  induction steps generalizing boundary calls with
  | nil => exact (Prod.mk.inj (Except.ok.inj h)).2.symm
  | cons step steps ih =>
    simp only [checkHistory, bind_eq_ok, mapError_eq_ok] at h
    obtain ⟨_, -, _, -, _, -, batch, hbatch, ⟨middle, calls₁⟩, hpairs, hrest⟩ := h
    have hsum := ih hrest
    have hpair := checkPairs_eq_ok hpairs
    obtain ⟨rfl, -⟩ := toolCallBatch_eq_ok hbatch
    simp only [callCount, List.map_cons, List.sum_cons] at hsum ⊢
    omega

theorem checkApprovals_eq_ok {seen approvals : List CheckpointApproval}
    (h : checkpoint.checkApprovals codec seen approvals = .ok ()) :
    ∀ approval ∈ approvals, approval.scope = checkpoint.scope ∧
      ∃ item, checkpoint.calls.find? (·.call.id = approval.prepared.call.id) = some item ∧
        item.prepared = some approval.prepared := by
  induction approvals generalizing seen with
  | nil => exact fun _ hmem => nomatch hmem
  | cons approval approvals ih =>
    simp only [TurnCheckpoint.checkApprovals, TurnCheckpoint.checkApproval, bind_eq_ok, reject_eq_ok,
      expect_eq_ok, not_or, not_not] at h
    obtain ⟨_, ⟨_, -, _, ⟨-, -, hscope, -⟩, item, hfind, _, hprepared, -⟩, hrest⟩ := h
    exact List.forall_mem_cons.2 ⟨⟨hscope, item, hfind, hprepared⟩, ih hrest⟩

theorem checkedAdd_eq_some {a b c : ℕ} (h : checkedAdd a b = some c) : c = a + b := by
  rw [checkedAdd] at h
  split_ifs at h
  exact (Option.some.inj h).symm

theorem validate_eq_ok {scope : ToolExecutionScope} (h : checkpoint.validate codec scope = .ok ()) :
    checkpoint.scope = scope ∧ Valid codec checkpoint := by
  simp only [TurnCheckpoint.validate, bind_eq_ok, reject_eq_ok, expect_eq_ok, mapError_eq_ok, not_or,
    not_not] at h
  obtain ⟨_, -, _, hscopeValid, _, hscope, _, -, _, hboundary, last, hlast, _, hlastStep, _, hnames, _,
    horder, _, hcalls, _, -, ⟨boundary, historical⟩, hhistory, _, -, _, hprior, _, hbudget, happrovals⟩ := h
  obtain ⟨-, -, -, hsteps, -⟩ := hboundary
  obtain ⟨hunique, -, hitems⟩ := checkCalls_eq_ok hcalls
  have hcount := checkHistory_eq_ok hhistory
  rw [Bool.not_eq_false] at hbudget
  simp only [TurnCheckpoint.budgetAgrees, Bool.and_eq_true, decide_eq_true_eq] at hbudget
  obtain ⟨⟨hused, -⟩, hfits⟩ := hbudget
  subst hscope
  refine ⟨rfl, hscopeValid, by omega, ⟨last, hlast, hlastStep.1, hlastStep.2, horder⟩, ?_, hunique, hitems,
    ?_, checkedAdd_eq_some hused, ?_, checkApprovals_eq_ok happrovals⟩
  · intro index step hstep
    by_contra hname
    refine hnames (List.any_eq_true.2 ⟨(step, index), List.mk_mem_zipIdx_iff_getElem?.2 hstep, ?_⟩)
    exact decide_eq_true hname
  · simp only at hcount hprior
    omega
  · intro limit hlimit
    obtain ⟨requested, hrequested, hle⟩ := (Option.any_eq_true _ _).1 hfits
    rw [hlimit, Option.all_some, decide_eq_true_eq] at hle
    rw [← checkedAdd_eq_some hrequested]
    exact hle

end Turn
end Kolyan
