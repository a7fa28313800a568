/-
# A refresh builds a batch again

`refresh_ready` prepares the calls that wait to run afresh, applies the decisions of the
policy one after the other and lays out the stages anew.  In between the checkpoint is
not one that would pass: an approval may still be of an older preparation of its call, as
long as a decision about that call is to come.  `Refreshes` is what the calls and the
approvals are meanwhile, with the calls that are `loose` in this way; the last decision
leaves none of them, and the stages hold the completed calls first and then each of
those that may run, once (`gives_buildRefreshed`).
-/

import Kolyan.Policy.Schedule
import Kolyan.Turn.Settling

namespace Kolyan
namespace Turn

open Checks Policy Threads Fallible

section Underway

variable (codec : Codec)

/-- An approval that is as validation asks, whichever call it is bound to. -/
structure CheckpointApproval.Offered (scope : ToolExecutionScope) (approval : CheckpointApproval) : Prop where
  named : approval.Named codec
  scope : approval.scope = scope
  revision : trimEmpty approval.policyRevision = false
  prepared : approval.prepared.validate codec.sha256 = .ok ()
  evidence : ∀ id, approval.evidenceId = some id → identifier id = .ok ()

/-- **A checkpoint under way from `old`**: its calls pass and none of them waits, and each
approval is of the preparation that its call has, or of a call that is loose. -/
structure TurnCheckpoint.Refreshes (loose : CheckpointCall → Prop) (old new : TurnCheckpoint) : Prop where
  frame : new.frame = old.frame
  same : new.calls.map (·.call) = old.calls.map (·.call)
  unique : (new.calls.map (·.call.id)).Nodup
  calls : ∀ item ∈ new.calls, item.Passes codec old.scope ∧ item.isAwaiting = false
  single : (new.approvals.map (·.prepared.call.id)).Nodup
  offered : ∀ approval ∈ new.approvals, approval.Offered codec old.scope
  bound : ∀ approval ∈ new.approvals, ∃ item ∈ new.calls, item.call.id = approval.prepared.call.id ∧
    (item.prepared = some approval.prepared ∨ loose item)

variable {codec} {loose loose' : CheckpointCall → Prop} {old checkpoint : TurnCheckpoint}

theorem TurnCheckpoint.Built.refreshes (h : checkpoint.Built codec)
    (hawaiting : ∀ item ∈ checkpoint.calls, item.isAwaiting = false) : checkpoint.Refreshes codec loose checkpoint where
  frame := rfl
  same := rfl
  unique := h.unique
  calls := fun item hitem => ⟨h.calls item hitem, hawaiting item hitem⟩
  single := h.single
  offered := fun approval happroval =>
    have hpasses := h.approvals approval happroval
    ⟨h.named approval happroval, hpasses.scope, hpasses.revision, hpasses.prepared, hpasses.evidence⟩
  bound := fun approval happroval =>
    have ⟨item, hitem, hid, hprepared⟩ := (h.approvals approval happroval).item
    ⟨item, hitem, hid, .inl hprepared⟩

theorem TurnCheckpoint.Refreshes.drop (h : old.Refreshes codec loose checkpoint) {id : String}
    (hloose : ∀ item, loose item → item.call.id ≠ id → loose' item) :
    old.Refreshes codec loose' (checkpoint.dropApprovals id) where
  frame := h.frame
  same := h.same
  unique := h.unique
  calls := h.calls
  single := h.single.sublist (List.filter_sublist.map _)
  offered := fun approval happroval => h.offered approval (List.mem_of_mem_filter happroval)
  bound := fun approval happroval => by
    obtain ⟨happroval, hne⟩ := List.mem_filter.1 happroval
    obtain ⟨item, hitem, hid, hbound⟩ := h.bound approval happroval
    exact ⟨item, hitem, hid, hbound.imp_right fun hitemLoose => hloose item hitemLoose (hid ▸ of_decide_eq_true hne)⟩

/-- **One call changed**, and its approvals are of the preparation it has then, if it is
not loose. -/
theorem TurnCheckpoint.Refreshes.update (h : old.Refreshes codec loose checkpoint) {id : String}
    {f : CheckpointCall → CheckpointCall} (hcall : ∀ item, (f item).call = item.call)
    (hitem : ∀ item ∈ checkpoint.calls, item.call.id = id → (f item).Passes codec old.scope ∧ (f item).isAwaiting = false)
    (hbound : ∀ approval ∈ checkpoint.approvals, approval.prepared.call.id = id → ∀ item ∈ checkpoint.calls,
      item.call.id = id → (f item).prepared = some approval.prepared ∨ loose (f item)) :
    old.Refreshes codec loose (checkpoint.update id f) where
  frame := h.frame
  same := (map_updateCall hcall).trans h.same
  unique := by
    have hids : (updateCall id f checkpoint.calls).map (·.call.id) = checkpoint.calls.map (·.call.id) :=
      map_updateCall fun item => congrArg ToolCall.id (hcall item)
    exact hids.symm ▸ h.unique
  calls := fun item hmem => by
    rcases mem_updateCall hmem with hmem | ⟨before, hbefore, hid, rfl⟩
    · exact h.calls item hmem
    · exact hitem before hbefore hid
  single := h.single
  offered := h.offered
  bound := fun approval happroval => by
    obtain ⟨item, hmem, hid, hitemBound⟩ := h.bound approval happroval
    by_cases hsame : item.call.id = id
    · subst hsame
      refine ⟨f item, mem_updateCall_self h.unique hmem, (congrArg ToolCall.id (hcall item)).trans hid, ?_⟩
      exact hbound approval happroval hid.symm item hmem rfl
    · exact ⟨item, mem_updateCall_of_ne hmem hsame, hid, hitemBound⟩

theorem TurnCheckpoint.Refreshes.close (h : old.Refreshes codec loose checkpoint) {id : String}
    {f : CheckpointCall → CheckpointCall} (hcall : ∀ item, (f item).call = item.call)
    (hitem : ∀ item ∈ checkpoint.calls, item.call.id = id → (f item).Passes codec old.scope ∧ (f item).isAwaiting = false)
    (hloose : ∀ item, loose item → item.call.id ≠ id → loose' item) :
    old.Refreshes codec loose' ((checkpoint.update id f).dropApprovals id) := by
  have hdropped : old.Refreshes codec loose' ((checkpoint.dropApprovals id).update id f) := by
    refine (h.drop hloose).update hcall hitem fun approval happroval hid => ?_
    exact absurd hid (of_decide_eq_true (List.mem_filter.1 happroval).2)
  exact hdropped

theorem TurnCheckpoint.Refreshes.ask (h : old.Refreshes codec loose checkpoint) {approval : CheckpointApproval}
    (hoffered : approval.Offered codec old.scope)
    (hnew : ∀ other ∈ checkpoint.approvals, other.prepared.call.id ≠ approval.prepared.call.id)
    {item : CheckpointCall} (hitem : item ∈ checkpoint.calls) (hid : item.call.id = approval.prepared.call.id)
    (hprepared : item.prepared = some approval.prepared) :
    old.Refreshes codec loose { checkpoint with approvals := checkpoint.approvals ++ [approval] } where
  frame := h.frame
  same := h.same
  unique := h.unique
  calls := h.calls
  single := by
    rw [List.map_append]
    refine List.nodup_append.2 ⟨h.single, List.nodup_singleton _, fun x hx y hy => ?_⟩
    obtain rfl := List.mem_singleton.1 hy
    obtain ⟨other, hother, rfl⟩ := List.mem_map.1 hx
    exact hnew other hother
  offered := fun other hother => by
    rcases List.mem_append.1 hother with hother | hother
    · exact h.offered other hother
    · obtain rfl := List.mem_singleton.1 hother
      exact hoffered
  bound := fun other hother => by
    rcases List.mem_append.1 hother with hother | hother
    · exact h.bound other hother
    · obtain rfl := List.mem_singleton.1 hother
      exact ⟨item, hitem, hid, .inl hprepared⟩

end Underway

section Calls

variable {codec : Codec} {state : RunState} {old checkpoint : TurnCheckpoint}

/-- The call waits to run. -/
def TurnCheckpoint.WaitsFor (checkpoint : TurnCheckpoint) (call : ToolCall) : Prop :=
  ∃ item ∈ checkpoint.calls, item.call = call ∧ item.isReady = true

theorem CheckpointCall.Passes.ready {scope : ToolExecutionScope} {item : CheckpointCall} (h : item.Passes codec scope)
    (hready : item.isReady = true) : item.state = .ready ∧ item.charged = false := by
  obtain ⟨call, prepared, charged, itemState⟩ := item
  cases itemState with
  | ready => exact ⟨rfl, h.state.1⟩
  | completed result issued => exact nomatch hready
  | awaitingExternal wait issued => exact nomatch hready

theorem gives_refreshCall_refreshes (h : old.Refreshes codec (·.isReady = true) checkpoint) {call : ToolCall}
    (hwaits : checkpoint.WaitsFor call) :
    Gives (state.refreshCall codec checkpoint call) fun new => old.Refreshes codec (·.isReady = true) new ∧
      ∀ other, other.id ≠ call.id → checkpoint.WaitsFor other → new.WaitsFor other := by
  obtain ⟨waiting, hwaiting, rfl, hready⟩ := hwaits
  have hself : ∀ item ∈ checkpoint.calls, item.call.id = waiting.call.id → item = waiting :=
    fun item hitem hid => List.inj_on_of_nodup_map h.unique hitem hwaiting hid
  have hother : ∀ f other, other.id ≠ waiting.call.id → checkpoint.WaitsFor other →
      (checkpoint.update waiting.call.id f).WaitsFor other := by
    rintro f other hne ⟨item, hitem, rfl, hitemReady⟩
    exact ⟨item, mem_updateCall_of_ne hitem hne, rfl, hitemReady⟩
  have hpasses := (h.calls waiting hwaiting).1
  unfold RunState.refreshCall
  refine gives_bind (gives_attempt (Q := fun r => Gives _ _) ?_ fun error => ?_)
  · refine (gives_prepareReady_valid waiting.call).mono fun current hcurrent => gives_then fun _ => gives_pure ?_
    obtain ⟨hvalid, hcall⟩ := hcurrent
    refine ⟨h.update (fun _ => rfl) (fun item hitem hid => ?_) (fun _ _ _ item hitem hid => .inr ?_), hother _⟩
    · obtain rfl := hself item hitem hid
      obtain ⟨hstate, hcharged⟩ := hpasses.ready hready
      refine ⟨⟨hpasses.proper, fun prepared hprepared => ?_, ?_⟩, (h.calls item hitem).2⟩
      · obtain rfl := Option.some.inj hprepared
        exact ⟨hvalid, hcall⟩
      · rw [CheckpointCall.StatePasses, hstate]
        exact ⟨hcharged, fun h => by cases h⟩
    · obtain rfl := hself item hitem hid
      exact hready
  · refine gives_bind ((gives_prepareFailure waiting.call error).mono fun result hresult => gives_pure ?_)
    refine ⟨h.close (fun _ => rfl) (fun item hitem hid => ?_) (fun _ hloose _ => hloose), hother _⟩
    obtain rfl := hself item hitem hid
    exact ⟨passes_failed hresult hpasses.proper _, rfl⟩

theorem gives_refreshCalls_refreshes {calls : List ToolCall} (h : old.Refreshes codec (·.isReady = true) checkpoint)
    (hunique : (calls.map (·.id)).Nodup) (hwaits : ∀ call ∈ calls, checkpoint.WaitsFor call) :
    Gives (state.refreshCalls codec checkpoint calls) (old.Refreshes codec (·.isReady = true)) := by
  induction calls generalizing checkpoint with
  | nil => exact gives_pure h
  | cons call calls ih =>
    obtain ⟨hhead, hunique⟩ := List.nodup_cons.1 hunique
    obtain ⟨hcall, hcalls⟩ := List.forall_mem_cons.1 hwaits
    refine gives_bind ((gives_refreshCall_refreshes h hcall).mono fun new ⟨hnew, hkept⟩ => ih hnew hunique ?_)
    intro other hother
    exact hkept other (fun hid => hhead (List.mem_map.2 ⟨other, hother, hid⟩)) (hcalls other hother)

end Calls

section Decisions

variable {codec : Codec} {state : RunState} {old checkpoint : TurnCheckpoint}

/-- The identities of the calls that wait to run. -/
def TurnCheckpoint.readyIds (checkpoint : TurnCheckpoint) : List String := checkpoint.ready.map (·.call.id)

theorem mem_readyIds {id : String} : id ∈ checkpoint.readyIds ↔
    ∃ item ∈ checkpoint.calls, item.isReady = true ∧ item.call.id = id := by
  simp only [TurnCheckpoint.readyIds, TurnCheckpoint.ready, List.mem_map, List.mem_filter, and_assoc]

theorem mem_readyIds_close (hunique : (checkpoint.calls.map (·.call.id)).Nodup) {closed id : String}
    {f : CheckpointCall → CheckpointCall} (hready : ∀ item, (f item).isReady = false)
    (hcall : ∀ item, (f item).call = item.call) :
    id ∈ ((checkpoint.update closed f).dropApprovals closed).readyIds ↔ id ∈ checkpoint.readyIds ∧ id ≠ closed := by
  rw [mem_readyIds, mem_readyIds]
  constructor
  · rintro ⟨item, hitem, hitemReady, rfl⟩
    have hne : item.call.id ≠ closed := by
      intro hid
      obtain ⟨before, -, rfl⟩ := updateCall_id hunique hitem hid
      rw [hready] at hitemReady
      exact nomatch hitemReady
    rcases mem_updateCall hitem with hitem | ⟨before, -, hid, rfl⟩
    · exact ⟨⟨item, hitem, hitemReady, rfl⟩, hne⟩
    · exact absurd ((congrArg ToolCall.id (hcall before)).trans hid) hne
  · rintro ⟨⟨item, hitem, hitemReady, rfl⟩, hne⟩
    exact ⟨item, mem_updateCall_of_ne hitem hne, hitemReady, rfl⟩

theorem CheckpointCall.Passes.denied {scope : ToolExecutionScope} {item : CheckpointCall} (h : item.Passes codec scope)
    (error : ToolError) : (item.complete (feedback item.call.id error) none).Passes codec scope :=
  ⟨h.proper, h.prepared, rfl, rfl, rfl⟩

/-- **One decision**: its call is not loose any more, and waits to run as before unless it
was denied. -/
theorem gives_applyDecision_refreshes {planned : BatchCallDecision} {left : List String}
    (h : old.Refreshes codec (fun item => item.call.id ∈ planned.callId :: left) checkpoint)
    (hrevision : trimEmpty planned.decision.policyVersion = false) :
    Gives (state.applyDecision codec checkpoint planned) fun new =>
      old.Refreshes codec (fun item => item.call.id ∈ left) new ∧
        ∀ id, id ∈ new.readyIds ↔ id ∈ checkpoint.readyIds ∧ (planned.callId = id → planned.decision.kind ≠ .deny) := by
  unfold RunState.applyDecision
  refine gives_bind (gives_expected fun item hitem => gives_bind (gives_expected fun prepared hprepared => ?_))
  have hmem := List.mem_of_find?_eq_some hitem
  have hid : item.call.id = planned.callId := by simpa using List.find?_some hitem
  have hpasses := (h.calls item hmem).1
  have hown : prepared.call.id = item.call.id := by rw [(hpasses.prepared prepared hprepared).2]
  have hloose : ∀ other : CheckpointCall, other.call.id ∈ planned.callId :: left → other.call.id ≠ item.call.id →
      other.call.id ∈ left := fun other hother hne =>
    (List.mem_cons.1 hother).resolve_left fun hsame => hne (hsame.trans hid.symm)
  refine gives_then fun _ => ?_
  split
  · -- denied
    rename_i hkind
    unfold RunState.denyCall
    refine gives_then fun _ => gives_then fun _ => ?_
    split
    · exact gives_throw
    · refine gives_then fun _ => gives_pure ⟨h.close (fun _ => rfl) (fun other hother hotherId => ?_) hloose, fun id => ?_⟩
      · obtain rfl := List.inj_on_of_nodup_map h.unique hother hmem hotherId
        exact ⟨hpasses.denied _, rfl⟩
      · refine (mem_readyIds_close h.unique ?_ ?_).trans (and_congr_right fun _ => ?_)
        · exact fun _ => rfl
        · exact fun _ => rfl
        · rw [hid, hkind]
          exact ⟨fun hne hsame => absurd hsame.symm hne, fun hdenied hsame => hdenied hsame.symm rfl⟩
  · -- lets the call wait for an approval
    rename_i hkind
    have hready : ∀ id, id ∈ checkpoint.readyIds ↔
        id ∈ checkpoint.readyIds ∧ (planned.callId = id → planned.decision.kind ≠ .deny) := by
      intro id
      rw [hkind]
      exact (and_iff_left fun _ h => by cases h).symm
    unfold RunState.requireApproval
    split
    · rename_i hcurrent
      refine gives_pure ⟨{ h with bound := fun approval happroval => ?_ }, hready⟩
      obtain ⟨other, hother, hotherId, hbound⟩ := h.bound approval happroval
      refine ⟨other, hother, hotherId, hbound.elim .inl fun hotherLoose => ?_⟩
      by_cases hsame : other.call.id = item.call.id
      · -- the one approval of the call is the one that was saved
        obtain rfl := List.inj_on_of_nodup_map h.unique hother hmem hsame
        have hsaved := savedApproval_of_mem h.single happroval
        rw [← hotherId] at hsaved
        rw [hsaved, Option.any_some, CheckpointApproval.current, Bool.and_eq_true, decide_eq_true_eq] at hcurrent
        exact .inl (hcurrent.1 ▸ hprepared)
      · exact .inr (hloose other hotherLoose hsame)
    · refine gives_then fun _ => gives_then fun _ => gives_pure ⟨?_, hready⟩
      have hnamed : (checkpoint.newApproval codec item prepared planned.decision).Named codec := by
        rw [CheckpointApproval.Named, CheckpointApproval.binding, TurnCheckpoint.newApproval, hown]
      refine (h.drop hloose).ask ⟨hnamed, scope_of_frame h.frame, hrevision, (hpasses.prepared prepared hprepared).1, fun _ h => by cases h⟩ ?_ hmem hown.symm
        hprepared
      intro other hother
      rw [TurnCheckpoint.newApproval, hown]
      exact of_decide_eq_true (List.mem_filter.1 hother).2
  all_goals
    rename_i hkind
    refine gives_pure ⟨h.drop hloose, fun id => ?_⟩
    rw [hkind]
    exact (and_iff_left fun _ h => by cases h).symm

theorem gives_applyDecisions_refreshes {decisions : List BatchCallDecision}
    (h : old.Refreshes codec (fun item => item.call.id ∈ decisions.map (·.callId)) checkpoint)
    (hrevision : ∀ planned ∈ decisions, trimEmpty planned.decision.policyVersion = false) :
    Gives (state.applyDecisions codec checkpoint decisions) fun new => old.Refreshes codec (fun _ => False) new ∧
      ∀ id, id ∈ new.readyIds ↔ id ∈ checkpoint.readyIds ∧
        ∀ planned ∈ decisions, planned.callId = id → planned.decision.kind ≠ .deny := by
  induction decisions generalizing checkpoint with
  | nil =>
    refine gives_pure ⟨{ h with bound := fun approval happroval => ?_ }, fun id => by simp⟩
    obtain ⟨item, hitem, hid, hbound⟩ := h.bound approval happroval
    exact ⟨item, hitem, hid, hbound.imp_right fun hmem => nomatch hmem⟩
  | cons planned decisions ih =>
    obtain ⟨hhead, hrevision⟩ := List.forall_mem_cons.1 hrevision
    refine gives_bind ((gives_applyDecision_refreshes h hhead).mono fun middle ⟨hmiddle, hready⟩ => ?_)
    refine (ih hmiddle hrevision).mono fun new ⟨hnew, hnewReady⟩ => ⟨hnew, fun id => ?_⟩
    rw [hnewReady, hready, and_assoc, List.forall_mem_cons]

end Decisions

section Stages

variable {codec : Codec} {state : RunState} {old checkpoint : TurnCheckpoint} {mode : ToolDispatchMode}
variable {plan : BatchExecutionPlan}

theorem perm_ready (hawaiting : ∀ item ∈ checkpoint.calls, item.isAwaiting = false) :
    (checkpoint.completedIds ++ checkpoint.readyIds).Perm (checkpoint.calls.map (·.call.id)) := by
  have hready : checkpoint.ready = checkpoint.calls.filter fun item => !item.isCompleted := by
    refine List.filter_congr fun item hitem => ?_
    cases hcompleted : item.isCompleted with
    | true => exact item.isReady_of_isCompleted hcompleted
    | false => exact item.isReady_of_not hcompleted (hawaiting item hitem)
  rw [TurnCheckpoint.completedIds, TurnCheckpoint.readyIds, hready, ← List.map_append]
  exact (List.filter_append_perm ..).map _

theorem nodup_readyIds (hunique : (checkpoint.calls.map (·.call.id)).Nodup) : checkpoint.readyIds.Nodup :=
  hunique.sublist (List.filter_sublist.map _)

/-- **The stages laid out anew** hold the completed calls, and then those that are left. -/
theorem stagesPass_restage (hunique : (checkpoint.calls.map (·.call.id)).Nodup)
    (hawaiting : ∀ item ∈ checkpoint.calls, item.isAwaiting = false)
    (hnonempty : ∀ stage ∈ checkpoint.openStages mode plan, stage ≠ [])
    (hopen : (checkpoint.openStages mode plan).flatten.Perm checkpoint.readyIds) :
    StagesPass checkpoint.calls (checkpoint.restage mode plan).stages (checkpoint.restage mode plan).stageIndex ∧
      (checkpoint.restage mode plan).stageIndex ≤ (checkpoint.restage mode plan).stages.length := by
  have hperm := perm_ready hawaiting
  have hself : ∀ item ∈ checkpoint.calls, ∀ other ∈ checkpoint.calls, other.call.id = item.call.id → other = item :=
    fun item hitem other hother hid => List.inj_on_of_nodup_map hunique hother hitem hid
  have hready : ∀ stage ∈ checkpoint.openStages mode plan, ∀ item ∈ checkpoint.calls, item.call.id ∈ stage →
      item.isReady = true := by
    intro stage hstage item hitem hid
    obtain ⟨other, hother, hotherReady, hotherId⟩ := mem_readyIds.1 (hopen.mem_iff.1 (List.mem_flatten_of_mem hstage hid))
    obtain rfl := hself item hitem other hother hotherId
    exact hotherReady
  unfold TurnCheckpoint.restage
  dsimp only
  split
  · rename_i hempty
    rw [List.isEmpty_iff.1 hempty, List.nil_append] at hperm
    exact ⟨⟨hnonempty, hopen.trans hperm, fun i stage _ hlt => absurd hlt (Nat.not_lt_zero i),
      fun i stage hi _ => hready stage (List.mem_of_getElem? hi)⟩, Nat.zero_le _⟩
  · rename_i hsome
    refine ⟨⟨List.forall_mem_cons.2 ⟨mt List.isEmpty_iff.2 hsome, hnonempty⟩, (hopen.append_left _).trans hperm,
      fun i stage hi hlt item hitem hid => ?_, fun i stage hi hlt => ?_⟩, by simp⟩
    · obtain rfl : i = 0 := Nat.lt_one_iff.1 hlt
      obtain rfl := Option.some.inj hi
      obtain ⟨other, hother, hotherId⟩ := List.mem_map.1 hid
      obtain ⟨hother, hcompleted⟩ := List.mem_filter.1 hother
      obtain rfl := hself item hitem other hother hotherId
      exact hcompleted
    · obtain ⟨j, rfl⟩ : ∃ j, i = j + 1 := ⟨i - 1, (Nat.succ_pred_eq_of_pos (Nat.zero_lt_of_lt hlt)).symm⟩
      exact hready stage (List.mem_of_getElem? hi)

theorem flatten_singles {α β : Type} (f : α → β) (xs : List α) : (xs.map fun x => [f x]).flatten = xs.map f := by
  induction xs with
  | nil => rfl
  | cons x xs ih => rw [List.map_cons, List.flatten_cons, ih, List.map_cons, List.singleton_append]

/-- **The stages that are left** hold each call that waits to run, once: where the plan
decides about the calls that waited before, and those it has not denied still do. -/
theorem perm_openStages (hunique : (checkpoint.calls.map (·.call.id)).Nodup)
    (hids : (plan.decisions.map (·.callId)).Nodup)
    (hready : ∀ id, id ∈ checkpoint.readyIds ↔ id ∈ plan.decisions.map (·.callId) ∧
      ∀ planned ∈ plan.decisions, planned.callId = id → planned.decision.kind ≠ .deny) :
    (∀ stage ∈ checkpoint.openStages mode plan, stage ≠ []) ∧
      (checkpoint.openStages mode plan).flatten.Perm checkpoint.readyIds := by
  cases mode with
  | serial =>
    refine ⟨fun stage hstage => ?_, .of_eq (flatten_singles _ _)⟩
    obtain ⟨item, -, rfl⟩ := List.mem_map.1 hstage
    exact List.cons_ne_nil _ _
  | parallel =>
    have hscheduled := stages_scheduled hids (plan.decisions.map (·.callId))
    refine ⟨hscheduled.nonempty, hscheduled.once.trans ?_⟩
    refine (List.perm_ext_iff_of_nodup (hids.sublist (List.filter_sublist.map _)) (nodup_readyIds hunique)).2 fun id => ?_
    have hexecutable : ∀ planned ∈ plan.decisions,
        planned.executable (plan.decisions.map (·.callId)) = true ↔ planned.decision.kind ≠ .deny := by
      intro planned hplanned
      have hmem : (plan.decisions.map (·.callId)).contains planned.callId = true :=
        List.contains_iff_mem.2 (List.mem_map_of_mem hplanned)
      unfold BatchCallDecision.executable
      cases planned.decision.kind with
      | allow => simp
      | allowWithConstraints => simp
      | requireApproval => simpa using hmem
      | deny => simp
    rw [hready, List.mem_map]
    constructor
    · rintro ⟨planned, hplanned, rfl⟩
      obtain ⟨hplanned, hruns⟩ := List.mem_filter.1 hplanned
      refine ⟨List.mem_map_of_mem hplanned, fun other hother hid => ?_⟩
      obtain rfl := List.inj_on_of_nodup_map hids hother hplanned hid
      exact (hexecutable other hother).1 hruns
    · rintro ⟨hid, hkind⟩
      obtain ⟨planned, hplanned, rfl⟩ := List.mem_map.1 hid
      exact ⟨planned, List.mem_filter.2 ⟨hplanned, (hexecutable planned hplanned).2 (hkind planned hplanned rfl)⟩, rfl⟩

theorem mapM_eq_some {α β : Type} {f : α → Option β} {xs : List α} {ys : List β} (h : xs.mapM f = some ys) :
    List.Forall₂ (fun x y => f x = some y) xs ys := by
  induction xs generalizing ys with
  | nil =>
    obtain rfl := Option.some.inj h
    exact .nil
  | cons x xs ih =>
    simp only [List.mapM_cons, Option.bind_eq_bind, Option.bind_eq_some_iff, Option.pure_def, Option.some.injEq] at h
    obtain ⟨y, hy, ys, hys, rfl⟩ := h
    exact .cons hy (ih hys)

theorem ids_of_prepared {items : List CheckpointCall} {preparations : List PreparedCall}
    (h : items.mapM (·.prepared) = some preparations)
    (hown : ∀ item ∈ items, ∀ prepared, item.prepared = some prepared → prepared.call = item.call) :
    preparations.map (·.call.id) = items.map (·.call.id) := by
  have hpairs := mapM_eq_some h
  clear h
  induction hpairs with
  | nil => rfl
  | cons hhead _ ih =>
    obtain ⟨hfirst, hrest⟩ := List.forall_mem_cons.1 hown
    rw [List.map_cons, List.map_cons, hfirst _ hhead, ih hrest]

theorem trimEmpty_revision (engine : PolicyEngine) (sha256 : Value → String) : trimEmpty (engine.revision sha256) = false := by
  have hname : "kolyan-policy-v3/".toList.all isWhitespace = false := by decide
  rw [PolicyEngine.revision, trimEmpty, String.toList_append, List.all_append, hname, Bool.false_and]

theorem TurnCheckpoint.Refreshes.restage {loose : CheckpointCall → Prop} (h : old.Refreshes codec loose checkpoint)
    (mode : ToolDispatchMode) (plan : BatchExecutionPlan) : old.Refreshes codec loose (checkpoint.restage mode plan) := by
  unfold TurnCheckpoint.restage
  dsimp only
  split
  · exact ⟨h.frame, h.same, h.unique, h.calls, h.single, h.offered, h.bound⟩
  · exact ⟨h.frame, h.same, h.unique, h.calls, h.single, h.offered, h.bound⟩

theorem TurnCheckpoint.Refreshes.built (hdigest : ∀ value, isHexDigest (codec.sha256 value) = true)
    (hbuilt : old.Built codec) (h : old.Refreshes codec (fun _ => False) checkpoint)
    (hstaged : StagesPass checkpoint.calls checkpoint.stages checkpoint.stageIndex)
    (hcursor : checkpoint.stageIndex ≤ checkpoint.stages.length) : checkpoint.recount.Built codec := by
  have hscope := scope_of_frame h.frame
  refine
    { framed := hbuilt.framed.of_frame h.frame h.same
      batch := fun hempty => hbuilt.batch ?_
      calls := fun item hitem => ?_
      unique := h.unique
      cursor := hcursor, staged := hstaged, used := rfl
      approvals := fun approval happroval => ?_
      single := h.single
      named := fun approval happroval => (h.offered approval happroval).named
      bounded := ?_ }
  · have hcalls := h.same
    rw [show checkpoint.calls = [] from hempty, List.map_nil] at hcalls
    exact List.map_eq_nil_iff.1 hcalls.symm
  · rw [show checkpoint.recount.scope = old.scope from hscope]
    exact (h.calls item hitem).1
  · obtain ⟨hnamed, happrovalScope, hrevision, hvalid, hevidence⟩ := h.offered approval happroval
    obtain ⟨item, hitem, hid, hprepared⟩ := h.bound approval happroval
    refine ⟨?_, happrovalScope.trans hscope.symm, hrevision, ⟨item, ?_, hprepared.resolve_right id⟩, hvalid, hevidence⟩
    · rw [hnamed]
      exact identifier_hostIdentity hdigest (by decide) (by decide) _
    · rw [← hid]
      exact find_of_mem h.unique hitem
  · rw [show checkpoint.recount.budget.toolTimeoutMs = old.budget.toolTimeoutMs from timeout_of_frame h.frame]
    exact hbuilt.bounded

/-- **What `refresh_ready` builds.** -/
theorem gives_buildRefreshed (hdigest : ∀ value, isHexDigest (codec.sha256 value) = true) {executor : TurnExecutor}
    (hpending : state.pending = some checkpoint) (hbuilt : checkpoint.Built codec)
    (hawaiting : ∀ item ∈ checkpoint.calls, item.isAwaiting = false) :
    Gives (executor.buildRefreshed codec state) fun r => r.1.Built codec ∧ r.1.frame = checkpoint.frame := by
  unfold TurnExecutor.buildRefreshed
  refine gives_bind (gives_expected fun before hbefore => ?_)
  obtain rfl := Option.some.inj (hpending.symm.trans hbefore)
  have hwaits : ∀ call ∈ checkpoint.ready.map (·.call), checkpoint.WaitsFor call := by
    intro call hcall
    obtain ⟨item, hitem, rfl⟩ := List.mem_map.1 hcall
    obtain ⟨hitem, hready⟩ := List.mem_filter.1 hitem
    exact ⟨item, hitem, rfl, hready⟩
  have hids : ((checkpoint.ready.map (·.call)).map (·.id)).Nodup := by
    rw [List.map_map]
    exact nodup_readyIds hbuilt.unique
  refine gives_bind ((gives_refreshCalls_refreshes (hbuilt.refreshes hawaiting) hids hwaits).mono fun prepared hprepared => ?_)
  refine gives_then fun _ => gives_then fun policy => gives_bind (gives_expected fun preparations hpreparations => ?_)
  refine gives_bind (gives_lift fun plan hplan => ?_)
  obtain ⟨hdecisions, -⟩ := resolvePreparedBatch_eq_ok (mapError_eq_ok.1 hplan)
  -- the plan decides about the calls that wait to run
  have hplanned : plan.decisions.map (·.callId) = prepared.readyIds := by
    rw [hdecisions, List.map_map]
    refine ids_of_prepared hpreparations fun item hitem => ?_
    exact fun current hcurrent => ((hprepared.calls item (List.mem_of_mem_filter hitem)).1.prepared current hcurrent).2
  have hrevision : ∀ planned ∈ plan.decisions, trimEmpty planned.decision.policyVersion = false := by
    intro planned hmem
    rw [hdecisions] at hmem
    obtain ⟨call, -, rfl⟩ := List.mem_map.1 hmem
    rw [PolicyEngine.planned, decidePrepared_policyVersion]
    exact trimEmpty_revision policy codec.sha256
  have hdeciding : checkpoint.Refreshes codec (fun item => item.call.id ∈ plan.decisions.map (·.callId)) prepared.recount :=
    { hprepared with
      frame := hprepared.frame
      bound := fun approval happroval => by
        obtain ⟨item, hitem, hid, hbound⟩ := hprepared.bound approval happroval
        refine ⟨item, hitem, hid, hbound.imp_right fun hready => ?_⟩
        rw [hplanned]
        exact mem_readyIds.2 ⟨item, hitem, hready, rfl⟩ }
  refine gives_bind ((gives_applyDecisions_refreshes hdeciding hrevision).mono fun decided ⟨hdecided, hready⟩ => ?_)
  refine gives_pure ?_
  have hunique : (plan.decisions.map (·.callId)).Nodup := hplanned ▸ nodup_readyIds hprepared.unique
  have hleft : ∀ id, id ∈ decided.readyIds ↔ id ∈ plan.decisions.map (·.callId) ∧
      ∀ planned ∈ plan.decisions, planned.callId = id → planned.decision.kind ≠ .deny := by
    intro id
    rw [hplanned]
    exact hready id
  obtain ⟨hnonempty, hopen⟩ := perm_openStages hdecided.unique hunique hleft
  obtain ⟨hstaged, hcursor⟩ := stagesPass_restage hdecided.unique (fun item hitem => (hdecided.calls item hitem).2) hnonempty hopen
  have hrestaged := hdecided.restage state.dispatch.mode plan
  exact ⟨hrestaged.built hdigest hbuilt (by rwa [calls_restage]) hcursor, hrestaged.frame⟩

end Stages

end Turn
end Kolyan
