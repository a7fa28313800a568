/-
# Calls of the current stage are settled

`dispatch_current_stage` runs calls of the current stage, and `merge_external` completes
calls of it that wait for an external result.  Either way a checkpoint settles into
another (`Settles`): it keeps its stages and its approvals and every call with its
preparation, and a call that has another state than before is one of the current stage
and passes.  `Settles.built` says that what was built so far stays built; behind it are
the stages, which partition the calls, so that a call of the current stage is in no other
(`StagesPass.settled`).
-/

import Kolyan.Turn.Building

namespace Kolyan
namespace Turn

open Checks Policy Threads Fallible

section Stages

variable {calls calls' : List CheckpointCall} {stages : List (List String)} {index : ℕ}

/-- A call of the current stage. -/
def InStage (stages : List (List String)) (index : ℕ) (id : String) : Prop :=
  ∃ stage, stages[index]? = some stage ∧ id ∈ stage

theorem inStage_unique (hunique : stages.flatten.Nodup) {i j : ℕ} {id : String} (hi : InStage stages i id)
    (hj : InStage stages j id) : i = j := by
  obtain ⟨left, hleft, hidLeft⟩ := hi
  obtain ⟨right, hright, hidRight⟩ := hj
  by_contra hne
  obtain ⟨-, hdisjoint⟩ := List.nodup_flatten.1 hunique
  obtain ⟨hilt, rfl⟩ := List.getElem?_eq_some_iff.1 hleft
  obtain ⟨hjlt, rfl⟩ := List.getElem?_eq_some_iff.1 hright
  rcases Nat.lt_or_gt_of_ne hne with hlt | hlt
  · exact List.pairwise_iff_getElem.1 hdisjoint i j hilt hjlt hlt hidLeft hidRight
  · exact List.pairwise_iff_getElem.1 hdisjoint j i hjlt hilt hlt hidRight hidLeft

theorem StagesPass.settled (h : StagesPass calls stages index) (hunique : (calls.map (·.call.id)).Nodup)
    (hsame : calls'.map (·.call.id) = calls.map (·.call.id))
    (hother : ∀ item ∈ calls', item ∈ calls ∨ InStage stages index item.call.id) : StagesPass calls' stages index where
  nonempty := h.nonempty
  once := hsame.symm ▸ h.once
  before := fun i stage hi hlt item hitem hid => by
    rcases hother item hitem with hitem | hcurrent
    · exact h.before i stage hi hlt item hitem hid
    · exact absurd (inStage_unique (h.once.nodup_iff.2 hunique) ⟨stage, hi, hid⟩ hcurrent) (by omega)
  after := fun i stage hi hlt item hitem hid => by
    rcases hother item hitem with hitem | hcurrent
    · exact h.after i stage hi hlt item hitem hid
    · exact absurd (inStage_unique (h.once.nodup_iff.2 hunique) ⟨stage, hi, hid⟩ hcurrent) (by omega)

theorem StagesPass.current (h : StagesPass calls stages index) {item : CheckpointCall} (hitem : item ∈ calls)
    (hawaiting : item.isAwaiting = true) : InStage stages index item.call.id := by
  obtain ⟨stage, hstage, hid⟩ := List.mem_flatten.1 (h.once.mem_iff.2 (List.mem_map_of_mem hitem))
  obtain ⟨i, hi⟩ := List.mem_iff_getElem?.1 hstage
  obtain ⟨call, prepared, charged, state⟩ := item
  rcases Nat.lt_trichotomy i index with hlt | rfl | hlt
  · have hcompleted := h.before i stage hi hlt _ hitem hid
    cases state with
    | ready => exact nomatch hawaiting
    | completed result issued => exact nomatch hawaiting
    | awaitingExternal wait issued => exact nomatch hcompleted
  · exact ⟨stage, hi, hid⟩
  · have hready := h.after i stage hi hlt _ hitem hid
    cases state with
    | ready => exact nomatch hawaiting
    | completed result issued => exact nomatch hawaiting
    | awaitingExternal wait issued => exact nomatch hready

end Stages

section Settled

variable (codec : Codec)

/-- **A checkpoint of which calls of the current stage were settled.** -/
structure TurnCheckpoint.Settles (old new : TurnCheckpoint) : Prop where
  frame : new.frame = old.frame
  stages : new.stages = old.stages
  cursor : new.stageIndex = old.stageIndex
  approvals : new.approvals = old.approvals
  same : new.calls.map (fun item => (item.call, item.prepared)) = old.calls.map fun item => (item.call, item.prepared)
  calls : ∀ item ∈ new.calls, item ∈ old.calls ∨
    item.Passes codec old.scope ∧ InStage old.stages old.stageIndex item.call.id

variable {codec} {old new : TurnCheckpoint}

theorem TurnCheckpoint.Settles.refl (checkpoint : TurnCheckpoint) : checkpoint.Settles codec checkpoint :=
  ⟨rfl, rfl, rfl, rfl, rfl, fun _ hitem => .inl hitem⟩

theorem TurnCheckpoint.Settles.map_call (h : old.Settles codec new) :
    new.calls.map (·.call) = old.calls.map (·.call) := by
  have hsame := congrArg (List.map Prod.fst) h.same
  rwa [List.map_map, List.map_map] at hsame

theorem TurnCheckpoint.Settles.map_id (h : old.Settles codec new) :
    new.calls.map (·.call.id) = old.calls.map (·.call.id) := by
  have hsame := congrArg (List.map ToolCall.id) h.map_call
  rwa [List.map_map, List.map_map] at hsame

theorem TurnCheckpoint.Settles.find (h : old.Settles codec new) {item : CheckpointCall} (hitem : item ∈ old.calls) :
    ∃ after ∈ new.calls, after.call = item.call ∧ after.prepared = item.prepared := by
  have hmem := List.mem_map_of_mem (f := fun item : CheckpointCall => (item.call, item.prepared)) hitem
  rw [← h.same] at hmem
  obtain ⟨after, hafter, hpair⟩ := List.mem_map.1 hmem
  exact ⟨after, hafter, (Prod.mk.inj hpair).1, (Prod.mk.inj hpair).2⟩

theorem CheckpointApproval.Passes.of_calls {scope : ToolExecutionScope} {calls calls' : List CheckpointCall}
    {approval : CheckpointApproval} (h : approval.Passes codec scope calls) (hunique : (calls'.map (·.call.id)).Nodup)
    (hbound : ∃ item ∈ calls', item.call.id = approval.prepared.call.id ∧ item.prepared = some approval.prepared) :
    approval.Passes codec scope calls' := by
  obtain ⟨item, hitem, hid, hprepared⟩ := hbound
  refine { h with bound := ⟨item, ?_, hprepared⟩ }
  rw [← hid]
  exact find_of_mem hunique hitem

theorem CheckpointApproval.Passes.item {scope : ToolExecutionScope} {calls : List CheckpointCall}
    {approval : CheckpointApproval} (h : approval.Passes codec scope calls) :
    ∃ item ∈ calls, item.call.id = approval.prepared.call.id ∧ item.prepared = some approval.prepared := by
  obtain ⟨item, hfind, hprepared⟩ := h.bound
  exact ⟨item, List.mem_of_find?_eq_some hfind, by simpa using List.find?_some hfind, hprepared⟩

/-- **What has settled stays built**, with the calls it has charged. -/
theorem TurnCheckpoint.Settles.built (h : old.Settles codec new) (hbuilt : old.Built codec)
    (hused : new.budget.toolCallsUsed = new.budget.priorToolCallsUsed + charged new.calls) : new.Built codec := by
  have hscope := scope_of_frame h.frame
  have hunique : (new.calls.map (·.call.id)).Nodup := h.map_id ▸ hbuilt.unique
  refine
    { framed := hbuilt.framed.of_frame h.frame h.map_call
      batch := fun hempty => hbuilt.batch ?_
      calls := fun item hitem => ?_
      unique := hunique
      cursor := ?_, staged := ?_, used := hused, approvals := fun approval happroval => ?_, single := ?_, named := ?_
      bounded := ?_ }
  · have hcalls := h.map_call
    rw [hempty, List.map_nil] at hcalls
    exact List.map_eq_nil_iff.1 hcalls.symm
  · rw [hscope]
    exact (h.calls item hitem).elim (hbuilt.calls item) And.left
  · rw [h.cursor, h.stages]
    exact hbuilt.cursor
  · rw [h.cursor, h.stages]
    exact hbuilt.staged.settled hbuilt.unique h.map_id fun item hitem => (h.calls item hitem).imp_right And.right
  · rw [h.approvals] at happroval
    have hpasses := hbuilt.approvals approval happroval
    obtain ⟨item, hitem, hid, hprepared⟩ := hpasses.item
    obtain ⟨after, hafter, hcall, hsame⟩ := h.find hitem
    rw [hscope]
    exact hpasses.of_calls hunique ⟨after, hafter, hcall ▸ hid, hsame.trans hprepared⟩
  · rw [h.approvals]
    exact hbuilt.single
  · rw [h.approvals]
    exact hbuilt.named
  · rw [timeout_of_frame h.frame]
    exact hbuilt.bounded

theorem TurnCheckpoint.Settles.update (h : old.Settles codec new) {id : String} {f : CheckpointCall → CheckpointCall}
    (hsame : ∀ item, (f item).call = item.call ∧ (f item).prepared = item.prepared)
    (hitem : ∀ item ∈ new.calls, item.call.id = id → (f item).Passes codec old.scope)
    (hcurrent : InStage old.stages old.stageIndex id) : old.Settles codec (new.update id f) where
  frame := h.frame
  stages := h.stages
  cursor := h.cursor
  approvals := h.approvals
  same := (map_updateCall fun item => Prod.ext (hsame item).1 (hsame item).2).trans h.same
  calls := fun item hmem => by
    rcases mem_updateCall hmem with hmem | ⟨before, hbefore, hid, rfl⟩
    · exact h.calls item hmem
    · refine .inr ⟨hitem before hbefore hid, ?_⟩
      rw [(hsame before).1, hid]
      exact hcurrent

end Settled

section Dispatch

variable {codec : Codec} {fuel : ℕ} {state : RunState} {old checkpoint : TurnCheckpoint}

/-- **An authority that was issued for a call** of the current stage. -/
structure TurnCheckpoint.Issues (codec : Codec) (checkpoint : TurnCheckpoint) (call : ToolCall)
    (issued : IssuedToolAuthority) : Prop where
  valid : issued.validate codec checkpoint.scope = .ok ()
  prepared : ∃ item ∈ checkpoint.calls, item.call = call ∧ item.prepared = some issued.prepared
  current : InStage checkpoint.stages checkpoint.stageIndex call.id

/-- The states that a call with an authority can be left in. -/
def IssuedToolAuthority.Leaves (issued : IssuedToolAuthority) : CheckpointCallState → Prop
  | .ready => False
  | .completed result authority => authority = some issued ∧ issued.validateResult result = .ok ()
  | .awaitingExternal wait authority => authority = issued ∧ wait.validate = .ok ()

theorem validateResult_callId {issued : IssuedToolAuthority} {result : ToolResult}
    (h : issued.validateResult result = .ok ()) : result.callId = issued.prepared.call.id := by
  simp only [IssuedToolAuthority.validateResult, bind_eq_ok, reject_eq_ok, not_not] at h
  obtain ⟨_, hid, -⟩ := h
  exact hid

theorem CheckpointCall.Passes.left {scope : ToolExecutionScope} {item : CheckpointCall} (h : item.Passes codec scope)
    {issued : IssuedToolAuthority} (hvalid : issued.validate codec scope = .ok ())
    (hprepared : item.prepared = some issued.prepared) {settled : CheckpointCallState} (hleaves : issued.Leaves settled) :
    ({ item with charged := true, state := settled } : CheckpointCall).Passes codec scope := by
  refine ⟨h.proper, h.prepared, ?_⟩
  cases settled with
  | ready => exact absurd hleaves id
  | completed result authority =>
    obtain ⟨rfl, hresult⟩ := hleaves
    have hcall := (h.prepared _ hprepared).2
    exact ⟨rfl, (validateResult_callId hresult).trans (congrArg ToolCall.id hcall), ⟨hvalid, hprepared⟩, hresult⟩
  | awaitingExternal wait authority =>
    obtain ⟨rfl, hwait⟩ := hleaves
    exact ⟨rfl, hwait, hvalid, hprepared⟩

theorem gives_observedState_leaves (observation : DispatchObservation) :
    Gives (state.observedState observation) observation.issued.Leaves := by
  unfold RunState.observedState
  split
  · refine gives_bind (gives_lift fun _ hresult => gives_then fun _ => gives_pure ⟨rfl, ?_⟩)
    exact mapError_eq_ok.1 hresult
  · split
    · exact gives_uncertain _ _
    · rename_i hwait
      exact gives_then fun _ => gives_pure ⟨rfl, hwait⟩
  · exact gives_uncertain _ _
  · unfold RunState.failedState
    refine gives_then fun _ => ?_
    split
    · exact gives_throw
    · split
      · exact gives_throw
      · refine gives_bind (gives_lift fun _ hresult => gives_then fun _ => gives_pure ⟨rfl, ?_⟩)
        exact mapError_eq_ok.1 hresult

theorem gives_applyObservation_settles (hbuilt : old.Built codec) (h : old.Settles codec checkpoint)
    {observation : DispatchObservation} (hissues : old.Issues codec observation.call observation.issued) :
    Gives (state.applyObservation checkpoint observation) (old.Settles codec) := by
  obtain ⟨hvalid, ⟨item, hitem, hcall, hprepared⟩, hcurrent⟩ := hissues
  unfold RunState.applyObservation
  refine gives_bind ((gives_observedState_leaves observation).mono fun settled hleaves => gives_then fun _ => gives_pure ?_)
  refine h.update (fun _ => ⟨rfl, rfl⟩) (fun before hbefore hid => ?_) hcurrent
  -- the call still has the preparation that the authority was issued for
  obtain ⟨after, hafter, hafterCall, hafterPrepared⟩ := h.find hitem
  have hunique : (checkpoint.calls.map (·.call.id)).Nodup := h.map_id ▸ hbuilt.unique
  obtain rfl := List.inj_on_of_nodup_map hunique hbefore hafter
    (hid.trans (congrArg ToolCall.id (hafterCall.trans hcall)).symm)
  have hpasses : before.Passes codec old.scope := (h.calls before hbefore).elim (hbuilt.calls before) And.left
  exact hpasses.left hvalid (hafterPrepared.trans hprepared) hleaves

theorem gives_dispatchSerial_settles (hbuilt : old.Built codec) {invocations : List (ToolCall × IssuedToolAuthority)}
    (hissues : ∀ invocation ∈ invocations, old.Issues codec invocation.1 invocation.2)
    (h : old.Settles codec checkpoint) :
    Gives (state.dispatchSerial fuel checkpoint invocations) (old.Settles codec) := by
  induction invocations generalizing checkpoint with
  | nil => exact gives_pure h
  | cons head invocations ih =>
    obtain ⟨call, issued⟩ := head
    obtain ⟨hhead, hissues⟩ := List.forall_mem_cons.1 hissues
    unfold RunState.dispatchSerial
    refine gives_bind ((gives_dispatchCall call issued).mono fun observation ⟨hcall, hissued⟩ => ?_)
    rw [← hcall, ← hissued] at hhead
    refine gives_bind ((gives_applyObservation_settles hbuilt h hhead).mono fun applied happlied => gives_then fun _ => ?_)
    split
    · exact gives_pure happlied
    · exact ih hissues happlied

theorem gives_drain_settles (hbuilt : old.Built codec) {observations : List (Except TurnError DispatchObservation)}
    (hissues : ∀ observation, .ok observation ∈ observations → old.Issues codec observation.call observation.issued)
    {fatal : Option TurnError} (h : old.Settles codec checkpoint) :
    Gives (state.drain checkpoint fatal observations) (old.Settles codec) := by
  induction observations generalizing checkpoint fatal with
  | nil =>
    cases fatal with
    | none => exact gives_pure h
    | some error => exact gives_throw
  | cons observation observations ih =>
    have hrest : ∀ other, .ok other ∈ observations → old.Issues codec other.call other.issued :=
      fun other hother => hissues other (List.mem_cons_of_mem _ hother)
    cases observation with
    | error e => exact ih hrest h
    | ok observation =>
      unfold RunState.drain
      refine gives_bind (gives_attempt ?_ fun e => ih hrest h)
      exact (gives_applyObservation_settles hbuilt h (hissues observation (List.mem_cons_self ..))).mono
        fun applied happlied => ih hrest happlied

theorem gives_dispatchParallel_settles (hbuilt : old.Built codec) {invocations : List (ToolCall × IssuedToolAuthority)}
    (hissues : ∀ invocation ∈ invocations, old.Issues codec invocation.1 invocation.2)
    (h : old.Settles codec checkpoint) :
    Gives (state.dispatchParallel fuel checkpoint invocations) (old.Settles codec) := by
  unfold RunState.dispatchParallel
  refine gives_bind ((gives_observations invocations).mono fun observations ⟨_, hback⟩ => ?_)
  refine gives_bind ((gives_drain_settles hbuilt (fun observation hmem => ?_) h).mono fun new hnew =>
    gives_then fun _ => gives_pure hnew)
  obtain ⟨i, hi⟩ := List.mem_iff_getElem?.1 hmem
  obtain ⟨invocation, hinvocation, hcall, hissued⟩ := hback i observation hi
  rw [hcall, hissued]
  exact hissues invocation (List.mem_of_getElem? hinvocation)

/-- **An invocation has an authority** that was issued for its call. -/
theorem gives_invocation_issues {plan : BatchExecutionPlan} {id : String}
    (hcurrent : InStage checkpoint.stages checkpoint.stageIndex id) :
    Gives (checkpoint.invocation codec plan id) fun invocation =>
      ∀ found ∈ invocation, checkpoint.Issues codec found.1 found.2 := by
  unfold TurnCheckpoint.invocation
  refine gives_bind (gives_expected fun item hitem => ?_)
  have hid : item.call.id = id := by simpa using List.find?_some hitem
  split
  · exact gives_pure fun _ hmem => nomatch hmem
  refine gives_then fun planned => ?_
  split
  · exact gives_pure fun _ hmem => nomatch hmem
  have hissue : Gives (checkpoint.issueAuthority codec item planned) fun issued =>
      issued.validate codec checkpoint.scope = .ok () ∧ item.prepared = some issued.prepared := by
    unfold TurnCheckpoint.issueAuthority
    dsimp only
    split
    · refine gives_then fun evidence => gives_bind (gives_expected fun prepared hprepared => gives_then fun grant => ?_)
      exact gives_bind (gives_lift fun _ hvalid => gives_pure ⟨mapError_eq_ok.1 hvalid, hprepared⟩)
    · refine gives_then fun evidence => gives_bind (gives_expected fun prepared hprepared => gives_then fun grant => ?_)
      exact gives_bind (gives_lift fun _ hvalid => gives_pure ⟨mapError_eq_ok.1 hvalid, hprepared⟩)
  refine gives_bind (hissue.mono fun issued ⟨hvalid, hprepared⟩ => gives_pure fun found hfound => ?_)
  obtain rfl := Option.some.inj hfound
  exact ⟨hvalid, ⟨item, List.mem_of_find?_eq_some hitem, rfl, hprepared⟩, hid ▸ hcurrent⟩

/-- **What `dispatch_current_stage` builds.** -/
theorem gives_buildDispatched (hpending : state.pending = some checkpoint) (hbuilt : checkpoint.Built codec)
    (plan : BatchExecutionPlan) : Gives (state.buildDispatched codec fuel plan) fun r =>
      ∀ new, r = .inr new → new.Built codec ∧ new.frame = checkpoint.frame := by
  unfold RunState.buildDispatched
  refine gives_bind (gives_expected fun before hbefore => ?_)
  obtain rfl := Option.some.inj (hpending.symm.trans hbefore)
  split
  · exact gives_pure fun _ hnew => by cases hnew
  · rename_i stage hstage
    refine gives_bind ((gives_invocations fun id hid => gives_invocation_issues ⟨stage, hstage, hid⟩).mono
      fun invocations hissues => ?_)
    split
    · exact gives_pure fun _ hnew => by cases hnew
    · have hrest : ∀ settled : TurnCheckpoint, checkpoint.Settles codec settled →
          Gives (return .inr settled.recount : TurnProg (Bool ⊕ TurnCheckpoint)) fun r =>
            ∀ new, r = .inr new → new.Built codec ∧ new.frame = checkpoint.frame := by
        refine fun settled hsettled => gives_pure fun new hnew => ?_
        obtain rfl := Sum.inr.inj hnew
        have hrecount : checkpoint.Settles codec settled.recount := { hsettled with frame := hsettled.frame }
        exact ⟨hrecount.built hbuilt rfl, hsettled.frame⟩
      dsimp only
      split
      · exact gives_bind ((gives_dispatchSerial_settles hbuilt hissues (.refl _)).mono hrest)
      · exact gives_bind ((gives_dispatchParallel_settles hbuilt hissues (.refl _)).mono hrest)

end Dispatch

section Merges

variable {codec : Codec} {old new checkpoint : TurnCheckpoint}

/-- **An approval that is confirmed** stays an approval that passes. -/
theorem CheckpointApproval.Passes.confirm {scope : ToolExecutionScope} {calls : List CheckpointCall}
    {approval : CheckpointApproval} (h : approval.Passes codec scope calls) {evidenceId : String}
    (hevidence : identifier evidenceId = .ok ()) :
    ({ approval with evidenceId := some evidenceId } : CheckpointApproval).Passes codec scope calls :=
  { h with evidence := fun _ hid => Option.some.inj hid ▸ hevidence }

theorem TurnCheckpoint.Built.confirm (h : checkpoint.Built codec) (approvalId : String) {evidenceId : String}
    (hevidence : identifier evidenceId = .ok ()) : (checkpoint.confirm approvalId evidenceId).Built codec where
  framed := h.framed.of_frame rfl rfl
  batch := h.batch
  calls := h.calls
  unique := h.unique
  cursor := h.cursor
  staged := h.staged
  used := h.used
  approvals := fun approval happroval => by
    rcases mem_updateApproval happroval with happroval | ⟨before, hbefore, rfl⟩
    · exact h.approvals approval happroval
    · exact (h.approvals before hbefore).confirm hevidence
  single := by
    have hsame : (checkpoint.confirm approvalId evidenceId).approvals.map (·.prepared.call.id) =
      checkpoint.approvals.map (·.prepared.call.id) := map_updateApproval fun _ => rfl
    exact hsame ▸ h.single
  named := fun approval happroval => by
    rcases mem_updateApproval happroval with happroval | ⟨before, hbefore, rfl⟩
    · exact h.named approval happroval
    · exact h.named before hbefore
  bounded := h.bounded

theorem TurnCheckpoint.Passes.confirm (h : checkpoint.Passes codec) (hbuilt : checkpoint.Built codec)
    (approvalId : String) {evidenceId : String} (hevidence : identifier evidenceId = .ok ()) :
    (checkpoint.confirm approvalId evidenceId).Passes codec := by
  have hconfirmed := hbuilt.confirm approvalId hevidence
  refine
    { framed := hconfirmed.framed, batch := h.batch, calls := h.calls, unique := h.unique, waits := h.waits, cursor := h.cursor
      staged := h.staged, used := h.used, approvals := hconfirmed.approvals, apart := ?_ }
  have hsame : (checkpoint.confirm approvalId evidenceId).approvals.map
      (fun approval => (approval.approvalId, approval.prepared.call.id)) =
        checkpoint.approvals.map fun approval => (approval.approvalId, approval.prepared.call.id) :=
    map_updateApproval fun _ => rfl
  have hdiffers : ∀ approvals : List CheckpointApproval, approvals.Pairwise CheckpointApproval.Differs ↔
      (approvals.map fun approval => (approval.approvalId, approval.prepared.call.id)).Pairwise
        fun a b => a.1 ≠ b.1 ∧ a.2 ≠ b.2 := by
    intro approvals
    rw [List.pairwise_map]
    rfl
  rw [hdiffers, hsame, ← hdiffers]
  exact h.apart

theorem resolveState_eq_ok {resolution : ExternalResolution} {state : CheckpointCallState} {issued : IssuedToolAuthority}
    (h : resolveState resolution state = .ok issued) :
    state = .awaitingExternal resolution.wait issued ∧ issued.validateResult resolution.result = .ok () := by
  cases state with
  | ready => exact nomatch h
  | completed result authority => exact nomatch h
  | awaitingExternal wait authority =>
    simp only [resolveState, bind_eq_ok, reject_eq_ok, not_not, pure_eq_ok] at h
    obtain ⟨_, rfl, _, hresult, rfl⟩ := h
    exact ⟨rfl, hresult⟩

/-- **One resolution** completes a call of the current stage, which was charged before. -/
theorem TurnCheckpoint.Settles.resolve (hbuilt : old.Built codec) (h : old.Settles codec new)
    {resolution : ExternalResolution} {item : CheckpointCall}
    (hitem : new.calls.find? (·.call.id = resolution.callId) = some item) {issued : IssuedToolAuthority}
    (hstate : resolveState resolution item.state = .ok issued) :
    old.Settles codec (new.resolve resolution issued) ∧
      (new.resolve resolution issued).calls.map (·.charged) = new.calls.map (·.charged) := by
  obtain ⟨hawaiting, hresult⟩ := resolveState_eq_ok hstate
  have hmem := List.mem_of_find?_eq_some hitem
  have hid : item.call.id = resolution.callId := by simpa using List.find?_some hitem
  have hunique : (new.calls.map (·.call.id)).Nodup := h.map_id ▸ hbuilt.unique
  have hpasses : item.Passes codec old.scope := (h.calls item hmem).elim (hbuilt.calls item) And.left
  have hcurrent : InStage old.stages old.stageIndex item.call.id := by
    rcases h.calls item hmem with hold | ⟨-, hcurrent⟩
    · refine hbuilt.staged.current hold ?_
      rw [CheckpointCall.isAwaiting, hawaiting]
    · exact hcurrent
  have hbefore := hpasses.state
  rw [CheckpointCall.StatePasses, hawaiting] at hbefore
  obtain ⟨hcharged, -, hvalid, hprepared⟩ := hbefore
  refine ⟨h.update (fun _ => ⟨rfl, rfl⟩) (fun other hother hotherId => ?_) (hid ▸ hcurrent), map_updateCall fun _ => rfl⟩
  obtain rfl := List.inj_on_of_nodup_map hunique hother hmem (hotherId.trans hid.symm)
  have hleft : ({ other with charged := true, state := .completed resolution.result (some issued) } : CheckpointCall).Passes
      codec old.scope := hpasses.left hvalid hprepared ⟨rfl, hresult⟩
  rwa [← hcharged] at hleft

theorem TurnCheckpoint.Settles.resolutions (hbuilt : old.Built codec) {seen : List String}
    {resolutions : List ExternalResolution} {checkpoint : TurnCheckpoint} (h : old.Settles codec checkpoint)
    (hmerge : checkpoint.mergeResolutions seen resolutions = .ok new) :
    old.Settles codec new ∧ new.calls.map (·.charged) = checkpoint.calls.map (·.charged) ∧ new.budget = checkpoint.budget := by
  induction resolutions generalizing seen checkpoint with
  | nil =>
    obtain rfl := Except.ok.inj hmerge
    exact ⟨h, rfl, rfl⟩
  | cons resolution resolutions ih =>
    simp only [TurnCheckpoint.mergeResolutions, bind_eq_ok, expect_eq_ok] at hmerge
    obtain ⟨_, -, item, hitem, issued, hstate, hrest⟩ := hmerge
    obtain ⟨hresolved, hcharged⟩ := h.resolve hbuilt hitem hstate
    obtain ⟨hsettled, hmap, hbudget⟩ := ih hresolved hrest
    exact ⟨hsettled, hmap.trans hcharged, hbudget⟩

/-- **What `merge_external` builds.** -/
theorem TurnCheckpoint.Built.resolved (h : old.Built codec) {resolutions : List ExternalResolution}
    (hmerge : old.mergeResolutions [] resolutions = .ok new) : new.Built codec ∧ new.frame = old.frame := by
  obtain ⟨hsettled, hcharged, hbudget⟩ := TurnCheckpoint.Settles.resolutions h (.refl old) hmerge
  refine ⟨hsettled.built h ?_, hsettled.frame⟩
  have hcount : charged new.calls = charged old.calls := by
    have hcount := congrArg (List.countP id) hcharged
    rwa [List.countP_map, List.countP_map] at hcount
  rw [hbudget, hcount]
  exact h.used

end Merges

end Turn
end Kolyan
