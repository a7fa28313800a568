/-
# The course of a Turn

A Turn starts, asks its model, makes a batch of the tool calls it is answered with,
refreshes the batch and dispatches it stage by stage, and waits in between for approvals
and external results that the host merges into its checkpoint.  `Comes` are the moments
that it comes to, one program of the loop after another, whatever each of them is
answered and whichever executor runs it; `comes_startResumable` and its siblings say that
the loop of `kolyan-core/src/turn/engine.rs` comes to no other.

The loop never builds a checkpoint that it would itself reject, as long as the tool
timeout of the Turn is not rounded off (`built_checkpoints_pass`): `initialize_pending`
keeps it in whole milliseconds, and one below a millisecond leaves the zero that
validation refuses (`not_built_checkpoints_pass`).  The invariant is that what is pending
or stored was built and passes (`Kept`), and that the state carries it (`Carries`); a batch
that is complete turns its checkpoint into the history of the next one (`history_batch`).
-/

import Kolyan.Turn.Refreshing

namespace Kolyan
namespace Turn

open Checks Policy Threads Fallible

section Histories

variable {messages : List Message} {boundary used : ℕ}

/-- A call and its result. -/
def Answers (call : ToolCall) (result : ToolResult) : Prop := result.callId = call.id

theorem checkPairs_append {calls : List ToolCall} {r : ℕ × ℕ} (h : checkPairs messages boundary used calls = .ok r)
    (more : List Message) : checkPairs (messages ++ more) boundary used calls = .ok r := by
  induction calls generalizing boundary used with
  | nil => exact h
  | cons call calls ih =>
    simp only [checkPairs, bind_eq_ok, expect_eq_ok] at h ⊢
    obtain ⟨next, hnext, message, hmessage, u, hpairs, hrest⟩ := h
    refine ⟨next, hnext, message, ?_, u, hpairs, ih hrest⟩
    rw [List.getElem?_append_left (List.getElem?_eq_some_iff.1 hmessage).1, hmessage]

theorem checkHistory_append {steps : List StepResult} {r : ℕ × ℕ}
    (h : checkHistory messages boundary used steps = .ok r) (more : List Message) :
    checkHistory (messages ++ more) boundary used steps = .ok r := by
  induction steps generalizing boundary used with
  | nil => exact h
  | cons step steps ih =>
    simp only [checkHistory, bind_eq_ok, expect_eq_ok, mapError_eq_ok] at h ⊢
    obtain ⟨u, houtcome, message, hmessage, v, hassistant, batch, hbatch, middle, hpairs, hrest⟩ := h
    refine ⟨u, houtcome, message, ?_, v, hassistant, batch, hbatch, middle, checkPairs_append hpairs more, ih hrest⟩
    rw [List.getElem?_append_left (List.getElem?_eq_some_iff.1 hmessage).1, hmessage]

theorem checkHistory_snoc {steps : List StepResult} {step : StepResult} {middle r : ℕ × ℕ}
    (h : checkHistory messages boundary used steps = .ok middle)
    (hstep : checkHistory messages middle.1 middle.2 [step] = .ok r) :
    checkHistory messages boundary used (steps ++ [step]) = .ok r := by
  induction steps generalizing boundary used with
  | nil =>
    obtain rfl := Except.ok.inj h
    exact hstep
  | cons head steps ih =>
    simp only [List.cons_append, checkHistory, bind_eq_ok, expect_eq_ok, mapError_eq_ok] at h ⊢
    obtain ⟨u, houtcome, message, hmessage, v, hassistant, batch, hbatch, next, hpairs, hrest⟩ := h
    exact ⟨u, houtcome, message, hmessage, v, hassistant, batch, hbatch, next, hpairs, ih hrest⟩

theorem checkPairs_results {calls : List ToolCall} {results : List ToolResult} (h : List.Forall₂ Answers calls results)
    (hfits : used + calls.length < 2 ^ 64) :
    checkPairs (messages ++ results.map ToolResult.message) messages.length used calls =
      .ok (messages.length + calls.length, used + calls.length) := by
  induction h generalizing messages used with
  | nil => rfl
  | @cons call result calls results hanswers _ ih =>
    rw [List.length_cons] at hfits
    have hnext : (messages ++ (result :: results).map ToolResult.message)[messages.length]? = some result.message := by
      rw [List.getElem?_append_right (Nat.le_refl _), Nat.sub_self]
      rfl
    have hpairs : pairsWith call result.message = true := by
      have hid : result.callId = call.id := hanswers
      simp [pairsWith, ToolResult.message, hid]
    have hsplit : messages ++ (result :: results).map ToolResult.message =
        (messages ++ [result.message]) ++ results.map ToolResult.message := by simp
    have hrest := @ih (messages ++ [result.message]) (used + 1) (by omega)
    rw [List.length_append, List.length_singleton] at hrest
    simp only [checkPairs, bind_eq_ok, expect_eq_ok, reject_eq_ok]
    refine ⟨used + 1, checkedAdd_of_lt (by omega), result.message, hnext, (), by rw [hpairs]; exact Bool.noConfusion, ?_⟩
    rw [hsplit, hrest, List.length_cons]
    congr 2
    · omega
    · omega

theorem history_batch {steps : List StepResult} {step : StepResult} {input : ℕ} {results : List ToolResult}
    (h : checkHistory messages input 0 steps = .ok (messages.length, used)) (houtcome : step.outcome = .toolCalls)
    (hbatch : toolCallBatch (toolCalls step.response.content) = .ok (toolCalls step.response.content))
    (hanswers : List.Forall₂ Answers (toolCalls step.response.content) results)
    (hfits : used + (toolCalls step.response.content).length < 2 ^ 64) :
    checkHistory (appendToolContext messages step.response.content results) input 0 (steps ++ [step]) =
      .ok ((appendToolContext messages step.response.content results).length,
        used + (toolCalls step.response.content).length) := by
  refine checkHistory_snoc (checkHistory_append h _) ?_
  have hassistant : (appendToolContext messages step.response.content results)[messages.length]? =
      some (assistantMessage step.response.content) := by
    rw [appendToolContext, List.getElem?_append_right (Nat.le_refl _), Nat.sub_self]
    rfl
  have hsplit : appendToolContext messages step.response.content results =
      (messages ++ [assistantMessage step.response.content]) ++ results.map ToolResult.message := by
    simp [appendToolContext]
  have hpairs : checkPairs ((messages ++ [assistantMessage step.response.content]) ++ results.map ToolResult.message)
      (messages ++ [assistantMessage step.response.content]).length used (toolCalls step.response.content) = _ :=
    checkPairs_results hanswers hfits
  rw [List.length_append, List.length_singleton, ← hsplit] at hpairs
  simp only [checkHistory, bind_eq_ok, expect_eq_ok, reject_eq_ok, mapError_eq_ok, not_not, not_or]
  refine ⟨(), houtcome, _, hassistant, (), ⟨rfl, rfl⟩, _, hbatch, _, hpairs, ?_⟩
  rw [hsplit, List.length_append, List.length_map, ← hanswers.length_eq, List.length_append, List.length_singleton]

end Histories

section Moments

/-- Where a Turn is between two programs of its loop. -/
inductive Moment where
  | running (state : RunState)
  | asked (state : RunState)
  | refreshed (state : RunState) (plan : BatchExecutionPlan)
  | stored (checkpoint : TurnCheckpoint)

variable (codec : Codec)

/-- **The moments that a Turn comes to**, of the tool timeout `timeout`. -/
inductive Comes (timeout : Option ℕ) : Moment → Prop
  | start {request : TurnRequest} {dispatch : ToolDispatchPolicy} {deadline : TurnDeadline} {state : RunState}
      (hstart : RunState.withDeadline request dispatch timeout deadline = .ok state) : Comes timeout (.running state)
  | asked {state next : RunState} {step : StepResult} (h : Comes timeout (.running state)) (hpending : state.pending = none)
      (hmax : state.steps.length < state.config.maxSteps) (hstep : state.modelStep.run.Returns (.ok (next, step)))
      (houtcome : step.outcome = .toolCalls) : Comes timeout (.asked next)
  | batch {executor : TurnExecutor} {state next : RunState} (h : Comes timeout (.asked state))
      (hbatch : (executor.initializePending codec state).run.Returns (.ok next)) : Comes timeout (.running next)
  | refreshed {executor : TurnExecutor} {state next : RunState} {checkpoint : TurnCheckpoint} {plan : BatchExecutionPlan}
      (h : Comes timeout (.running state)) (hpending : state.pending = some checkpoint)
      (hawaiting : checkpoint.calls.any (·.isAwaiting) = false)
      (hrefresh : (executor.refreshReady codec state).run.Returns (.ok (next, plan))) : Comes timeout (.refreshed next plan)
  | approved {state next : RunState} {plan : BatchExecutionPlan} {checkpoint : TurnCheckpoint} {approval : ApprovalRequest}
      (h : Comes timeout (.refreshed state plan)) (hpending : state.pending = some checkpoint)
      (happroved : (state.awaitApproval checkpoint approval).run.Returns (.ok next)) : Comes timeout (.running next)
  | dispatched {fuel : ℕ} {state next : RunState} {plan : BatchExecutionPlan} {progressed : Bool}
      (h : Comes timeout (.refreshed state plan))
      (hdispatch : (state.dispatchCurrentStage codec fuel plan).run.Returns (.ok (next, progressed))) :
      Comes timeout (.running next)
  | finished {state next : RunState} {checkpoint : TurnCheckpoint} (h : Comes timeout (.running state))
      (hpending : state.pending = some checkpoint) (hcompleted : checkpoint.calls.all (·.isCompleted) = true)
      (hfinished : (state.completeBatch checkpoint).run.Returns (.ok next)) : Comes timeout (.running next)
  | suspended {state : RunState} {checkpoint : TurnCheckpoint} (h : Comes timeout (.running state))
      (hpending : state.pending = some checkpoint) : Comes timeout (.stored checkpoint)
  | confirmed {checkpoint merged : TurnCheckpoint} {confirmation : ApprovalConfirmation} {scope : ToolExecutionScope}
      {nowMs : ℕ} (h : Comes timeout (.stored checkpoint))
      (hmerge : checkpoint.mergeApproval codec confirmation scope nowMs = .ok merged) : Comes timeout (.stored merged)
  | resolved {checkpoint merged : TurnCheckpoint} {resolutions : List ExternalResolution} {scope : ToolExecutionScope}
      (h : Comes timeout (.stored checkpoint))
      (hmerge : checkpoint.mergeExternal codec resolutions scope = .ok merged) : Comes timeout (.stored merged)
  | resumed {checkpoint : TurnCheckpoint} {scope : ToolExecutionScope} {deadline : TurnDeadline} {state : RunState}
      (h : Comes timeout (.stored checkpoint))
      (hrestore : RunState.restoreWithDeadline codec checkpoint scope deadline = .ok state) :
      Comes timeout (.running { state with resumeBoundary := none })

/-- **The checkpoints that the loop builds** at such a moment, before it validates them;
those of `initialize_pending` of calls whose identities and names it accepts. -/
inductive Builds : Moment → TurnCheckpoint → Prop
  | initialized {executor : TurnExecutor} {state : RunState} {checkpoint : TurnCheckpoint} {last : StepResult}
      (hlast : state.steps.getLast? = some last)
      (hproper : ∀ call ∈ toolCalls last.response.content, properCall call = true)
      (hbuilt : (executor.buildPending codec state).run.Returns (.ok checkpoint)) : Builds (.asked state) checkpoint
  | refreshed {executor : TurnExecutor} {state : RunState} {pending checkpoint : TurnCheckpoint} {plan : BatchExecutionPlan}
      (hpending : state.pending = some pending) (hawaiting : pending.calls.any (·.isAwaiting) = false)
      (hbuilt : (executor.buildRefreshed codec state).run.Returns (.ok (checkpoint, plan))) :
      Builds (.running state) checkpoint
  | dispatched {fuel : ℕ} {state : RunState} {plan : BatchExecutionPlan} {checkpoint : TurnCheckpoint}
      (hbuilt : (state.buildDispatched codec fuel plan).run.Returns (.ok (.inr checkpoint))) :
      Builds (.refreshed state plan) checkpoint
  | confirmed {checkpoint merged : TurnCheckpoint} {confirmation : ApprovalConfirmation} {scope : ToolExecutionScope}
      {nowMs : ℕ} (hbuilt : checkpoint.buildConfirmed codec confirmation scope nowMs = .ok merged) :
      Builds (.stored checkpoint) merged
  | resolved {checkpoint merged : TurnCheckpoint} {resolutions : List ExternalResolution} {scope : ToolExecutionScope}
      (hbuilt : checkpoint.buildResolved codec resolutions scope = .ok merged) : Builds (.stored checkpoint) merged

/-- **What was built and passes.** -/
structure TurnCheckpoint.Kept (checkpoint : TurnCheckpoint) : Prop where
  built : checkpoint.Built codec
  passes : checkpoint.Passes codec

/-- **What a Turn is at its moments.** -/
def Moment.Sound : Moment → Prop
  | .running state => match state.pending with
    | none => state.Told state.steps
    | some checkpoint => checkpoint.Kept codec ∧ state.Carries checkpoint
  | .asked state => state.Asks
  | .refreshed state _ => ∃ checkpoint, state.pending = some checkpoint ∧ checkpoint.Kept codec ∧ state.Carries checkpoint
  | .stored checkpoint => checkpoint.Kept codec

end Moments

section Steps

variable {codec : Codec} {executor : TurnExecutor} {fuel : ℕ} {state : RunState} {checkpoint new : TurnCheckpoint}

theorem RunState.Carries.of_frame (h : state.Carries checkpoint) (hframe : new.frame = checkpoint.frame) :
    state.Carries new where
  timed := h.timed
  turn := (congrArg (·.scope.execution.turnId) hframe :).trans h.turn
  steps := (congrArg TurnCheckpoint.steps hframe :).trans h.steps
  messages := (congrArg (·.modelRequest.messages) hframe :).trans h.messages
  input := (congrArg TurnCheckpoint.inputMessageCount hframe :).trans h.input

theorem RunState.Carries.pend (h : state.Carries checkpoint) (pending : Option TurnCheckpoint) :
    ({ state with pending } : RunState).Carries checkpoint := ⟨h.timed, h.turn, h.steps, h.messages, h.input⟩

theorem gives_validated (h : checkpoint.Built codec) : Gives (state.validated codec checkpoint) fun next =>
    next = { state with pending := some checkpoint } ∧ checkpoint.Kept codec := by
  unfold RunState.validated
  refine gives_bind (gives_lift fun _ hvalid => gives_pure ⟨rfl, h, ?_⟩)
  exact (validate_iff.1 (mapError_eq_ok.1 hvalid)).2.2

theorem told_start {request : TurnRequest} {dispatch : ToolDispatchPolicy} {timeout : Option ℕ} {deadline : TurnDeadline}
    (htimeout : ∀ t, timeout = some t → t / 10 ^ 6 % 2 ^ 64 ≠ 0)
    (h : RunState.withDeadline request dispatch timeout deadline = .ok state) :
    state.pending = none ∧ state.Told state.steps := by
  simp only [RunState.withDeadline, bind_eq_ok, pure_eq_ok] at h
  obtain ⟨_, -, _, -, rfl⟩ := h
  exact ⟨rfl, htimeout, nofun, Nat.le_refl _, rfl⟩

theorem gives_modelStep_asks (h : state.Told state.steps) (hmax : state.steps.length < state.config.maxSteps) :
    Gives state.modelStep fun r => r.2.outcome = .toolCalls → r.1.Asks := by
  unfold RunState.modelStep
  refine gives_then fun _ => gives_then fun _ => gives_then fun _ => gives_then fun _ => gives_then fun _ => ?_
  refine gives_then fun _ => gives_then fun reply => gives_then fun _ => gives_pure fun houtcome => ?_
  refine
    { told :=
        { timed := h.timed
          names := fun index step hindex => ?_
          input_le := h.input_le
          history := ?_ }
      steps_le := by simpa using hmax
      last := ⟨_, List.getLast?_concat, houtcome⟩ }
  · rcases Nat.lt_or_ge index state.steps.length with hlt | hge
    · rw [List.getElem?_append_left hlt] at hindex
      exact h.names index step hindex
    · rw [List.getElem?_append_right hge] at hindex
      obtain ⟨hlt, rfl⟩ := List.getElem?_eq_some_iff.1 hindex
      obtain rfl : index = state.steps.length := by
        rw [List.length_singleton] at hlt
        omega
      simp [RunState.nextStepId]
  · rw [List.dropLast_concat]
    exact h.history

theorem gives_initializePending_kept (hdigest : ∀ value, isHexDigest (codec.sha256 value) = true) (h : state.Asks) :
    Gives (executor.initializePending codec state) fun next =>
      ∃ checkpoint, next.pending = some checkpoint ∧ checkpoint.Kept codec ∧ next.Carries checkpoint := by
  rw [initializePending_eq]
  refine gives_bind ((gives_buildPending hdigest h).mono fun checkpoint ⟨hcarries, _, hbuilt⟩ => ?_)
  unfold RunState.validated
  refine gives_bind (gives_lift fun _ hvalid => gives_pure ?_)
  have hpasses := (validate_iff.1 (mapError_eq_ok.1 hvalid)).2.2
  exact ⟨checkpoint, rfl, ⟨hbuilt fun item hitem => (hpasses.calls item hitem).proper, hpasses⟩, hcarries.pend _⟩

theorem gives_refreshReady_kept (hdigest : ∀ value, isHexDigest (codec.sha256 value) = true)
    (hpending : state.pending = some checkpoint) (hkept : checkpoint.Kept codec) (hcarries : state.Carries checkpoint)
    (hawaiting : checkpoint.calls.any (·.isAwaiting) = false) :
    Gives (executor.refreshReady codec state) fun r =>
      ∃ new, r.1.pending = some new ∧ new.Kept codec ∧ r.1.Carries new := by
  rw [refreshReady_eq]
  have hnone : ∀ item ∈ checkpoint.calls, item.isAwaiting = false := fun item hitem =>
    Bool.not_eq_true _ ▸ List.any_eq_false.1 hawaiting item hitem
  refine gives_bind ((gives_buildRefreshed hdigest hpending hkept.built hnone).mono fun r ⟨hbuilt, hframe⟩ => ?_)
  obtain ⟨new, plan⟩ := r
  refine gives_bind ((gives_validated hbuilt).mono fun next ⟨hnext, hnew⟩ => ?_)
  refine gives_then fun _ => gives_then fun _ => gives_then fun _ => gives_pure ?_
  subst hnext
  exact ⟨new, rfl, hnew, (hcarries.of_frame hframe).pend _⟩

theorem gives_awaitApproval_kept (hkept : checkpoint.Kept codec) (hcarries : state.Carries checkpoint)
    (approval : ApprovalRequest) : Gives (state.awaitApproval checkpoint approval) fun next =>
      ∃ new, next.pending = some new ∧ new.Kept codec ∧ next.Carries new := by
  unfold RunState.awaitApproval
  refine gives_then fun _ => gives_then fun _ => gives_then fun _ => gives_then fun _ =>
    gives_bind (gives_expected fun saved hsaved => gives_pure ?_)
  have hidentity : identifier approval.approvalId = .ok () := by
    have hid : saved.approvalId = approval.approvalId := by simpa using List.find?_some hsaved
    exact hid ▸ (hkept.passes.approvals saved (List.mem_of_find?_eq_some hsaved)).identity
  have hframe : (checkpoint.confirm approval.approvalId approval.approvalId).frame = checkpoint.frame := rfl
  exact ⟨_, rfl, ⟨hkept.built.confirm _ hidentity, hkept.passes.confirm hkept.built _ hidentity⟩,
    (hcarries.of_frame hframe).pend _⟩

theorem gives_dispatchCurrentStage_kept (hpending : state.pending = some checkpoint) (hkept : checkpoint.Kept codec)
    (hcarries : state.Carries checkpoint) (plan : BatchExecutionPlan) :
    Gives (state.dispatchCurrentStage codec fuel plan) fun r =>
      ∃ new, r.1.pending = some new ∧ new.Kept codec ∧ r.1.Carries new := by
  rw [dispatchCurrentStage_eq]
  refine gives_bind ((gives_buildDispatched hpending hkept.built plan).mono fun r hr => ?_)
  cases r with
  | inl progressed => exact gives_pure ⟨checkpoint, hpending, hkept, hcarries⟩
  | inr new =>
    obtain ⟨hbuilt, hframe⟩ := hr new rfl
    refine gives_bind ((gives_validated hbuilt).mono fun next ⟨hnext, hnew⟩ => gives_pure ?_)
    subst hnext
    exact ⟨new, rfl, hnew, (hcarries.of_frame hframe).pend _⟩

theorem answers_results {items : List CheckpointCall} {results : List ToolResult} {scope : ToolExecutionScope}
    (h : items.mapM (·.result?) = some results) (hpasses : ∀ item ∈ items, item.Passes codec scope) :
    List.Forall₂ Answers (items.map (·.call)) results := by
  have hpairs := mapM_eq_some h
  clear h
  induction hpairs with
  | nil => exact .nil
  | @cons item result items results hresult _ ih =>
    obtain ⟨hitem, hitems⟩ := List.forall_mem_cons.1 hpasses
    refine .cons ?_ (ih hitems)
    obtain ⟨call, prepared, charged, itemState⟩ := item
    have hstate := hitem.state
    cases itemState with
    | ready => exact nomatch hresult
    | awaitingExternal wait issued => exact nomatch hresult
    | completed found issued =>
      obtain rfl := Option.some.inj hresult
      cases issued with
      | none => exact hstate.2.1
      | some issued => exact hstate.2.1

theorem CheckpointCall.Passes.charged {scope : ToolExecutionScope} {item : CheckpointCall} (h : item.Passes codec scope)
    (hcompleted : item.isCompleted = true) : item.charged = true := by
  obtain ⟨call, prepared, charged, itemState⟩ := item
  have hstate := h.state
  cases itemState with
  | ready => exact nomatch hcompleted
  | awaitingExternal wait issued => exact nomatch hcompleted
  | completed found issued =>
    cases issued with
    | none => exact hstate.1
    | some issued => exact hstate.1

theorem gives_completeBatch_told (hkept : checkpoint.Kept codec) (hcarries : state.Carries checkpoint)
    (hcompleted : checkpoint.calls.all (·.isCompleted) = true) :
    Gives (state.completeBatch checkpoint) fun next => next.pending = none ∧ next.Told next.steps := by
  have hframed := hkept.passes.framed
  unfold RunState.completeBatch
  refine gives_bind (gives_lift fun batch hbatch => gives_then fun paired => gives_then fun _ =>
    gives_bind (gives_expected fun step hstep => gives_bind (gives_expected fun results hresults => gives_pure ⟨rfl, ?_⟩)))
  obtain ⟨last, hlast, -, houtcome, hcalls⟩ := hframed.last
  obtain rfl := Option.some.inj (hlast.symm.trans hstep)
  have hvalid := mapError_eq_ok.1 hbatch
  rw [(toolCallBatch_eq_ok hvalid).1, ← hcalls] at hvalid
  have hanswers := answers_results hresults hkept.passes.calls
  rw [← hcalls] at hanswers
  have hlength : (toolCalls last.response.content).length = checkpoint.calls.length := by rw [hcalls, List.length_map]
  have hcharged : charged checkpoint.calls = checkpoint.calls.length :=
    List.countP_eq_length.2 fun item hitem => (hkept.passes.calls item hitem).charged (List.all_eq_true.1 hcompleted item hitem)
  have hsplit : checkpoint.steps.dropLast ++ [last] = checkpoint.steps := List.dropLast_append_getLast? last hlast
  have hhistory := history_batch hframed.history houtcome hvalid hanswers (hlength ▸ hframed.fits)
  rw [hsplit, hlength, ← hcharged, ← hkept.passes.used, hcarries.messages, hcarries.input, hcarries.steps] at hhistory
  refine ⟨hcarries.timed, fun index found hindex => ?_, ?_, hhistory⟩
  · rw [← hcarries.turn]
    exact hframed.names index found (hcarries.steps.symm ▸ hindex)
  · have hinput := hframed.input_le
    rw [hcarries.messages, hcarries.input] at hinput
    exact hinput.trans (by rw [appendToolContext, List.length_append]; omega)

theorem carries_restored {scope : ToolExecutionScope} {deadline : TurnDeadline} (hkept : checkpoint.Kept codec)
    (h : RunState.restoreWithDeadline codec checkpoint scope deadline = .ok state) :
    state.pending = some checkpoint ∧ state.Carries checkpoint := by
  simp only [RunState.restoreWithDeadline, bind_eq_ok, mapError_eq_ok, pure_eq_ok] at h
  obtain ⟨_, hvalid, _, -, _, -, rfl⟩ := h
  obtain ⟨-, rfl, -⟩ := validate_iff.1 hvalid
  refine ⟨rfl, fun timeout htimeout => ?_, rfl, rfl, rfl, rfl⟩
  obtain ⟨ms, hms, rfl⟩ := Option.map_eq_some_iff.1 htimeout
  rw [Nat.mul_div_cancel _ (by decide), Nat.mod_eq_of_lt (hkept.built.bounded ms hms)]
  exact fun hzero => hkept.passes.framed.timeout (hms.trans (congrArg some hzero))

end Steps

section Runs

variable {codec : Codec} {timeout : Option ℕ} {moment : Moment} {checkpoint built : TurnCheckpoint}

theorem sound_pending {state : RunState}
    (h : ∃ checkpoint, state.pending = some checkpoint ∧ checkpoint.Kept codec ∧ state.Carries checkpoint) :
    (Moment.running state).Sound codec := by
  obtain ⟨checkpoint, hpending, hkept⟩ := h
  rw [Moment.Sound, hpending]
  exact hkept

theorem sound_told {state : RunState} (h : state.pending = none ∧ state.Told state.steps) :
    (Moment.running state).Sound codec := by
  rw [Moment.Sound, h.1]
  exact h.2

theorem kept_of_sound {state : RunState} (h : (Moment.running state).Sound codec) (hpending : state.pending = some checkpoint) :
    checkpoint.Kept codec ∧ state.Carries checkpoint := by
  rwa [Moment.Sound, hpending] at h

theorem Comes.sound (hdigest : ∀ value, isHexDigest (codec.sha256 value) = true)
    (htimeout : ∀ t, timeout = some t → t / 10 ^ 6 % 2 ^ 64 ≠ 0) (h : Comes codec timeout moment) : moment.Sound codec := by
  induction h with
  | start hstart => exact sound_told (told_start htimeout hstart)
  | asked _ hpending hmax hstep houtcome ih =>
    rw [Moment.Sound, hpending] at ih
    exact gives_modelStep_asks ih hmax _ hstep houtcome
  | batch _ hbatch ih => exact sound_pending (gives_initializePending_kept hdigest ih _ hbatch)
  | refreshed _ hpending hawaiting hrefresh ih =>
    obtain ⟨hkept, hcarries⟩ := kept_of_sound ih hpending
    exact gives_refreshReady_kept hdigest hpending hkept hcarries hawaiting _ hrefresh
  | approved _ hpending happroved ih =>
    obtain ⟨checkpoint, hsame, hkept, hcarries⟩ := ih
    obtain rfl := Option.some.inj (hpending.symm.trans hsame)
    exact sound_pending (gives_awaitApproval_kept hkept hcarries _ _ happroved)
  | dispatched _ hdispatch ih =>
    obtain ⟨checkpoint, hpending, hkept, hcarries⟩ := ih
    exact sound_pending (gives_dispatchCurrentStage_kept hpending hkept hcarries _ _ hdispatch)
  | finished _ hpending hcompleted hfinished ih =>
    obtain ⟨hkept, hcarries⟩ := kept_of_sound ih hpending
    exact sound_told (gives_completeBatch_told hkept hcarries hcompleted _ hfinished)
  | suspended _ hpending ih => exact (kept_of_sound ih hpending).1
  | confirmed _ hmerge ih =>
    rw [mergeApproval_eq] at hmerge
    simp only [TurnCheckpoint.buildConfirmed, bind_eq_ok, expect_eq_ok, pure_eq_ok] at hmerge
    obtain ⟨_, ⟨_, -, _, hevidence, _, -, _, -, rfl⟩, _, hvalid, rfl⟩ := hmerge
    exact ⟨ih.built.confirm _ hevidence, (validate_iff.1 hvalid).2.2⟩
  | resolved _ hmerge ih =>
    rw [mergeExternal_eq] at hmerge
    simp only [TurnCheckpoint.buildResolved, bind_eq_ok, pure_eq_ok] at hmerge
    obtain ⟨_, ⟨_, -, hmerge⟩, _, hvalid, rfl⟩ := hmerge
    exact ⟨(ih.built.resolved hmerge).1, (validate_iff.1 hvalid).2.2⟩
  | resumed _ hrestore ih =>
    obtain ⟨hpending, hcarries⟩ := carries_restored ih hrestore
    refine sound_pending ⟨_, hpending, ih, hcarries.timed, hcarries.turn, hcarries.steps, hcarries.messages, hcarries.input⟩

theorem built_of_builds (hdigest : ∀ value, isHexDigest (codec.sha256 value) = true) (hsound : moment.Sound codec)
    (h : Builds codec moment built) : built.Built codec := by
  cases h with
  | initialized hlast hproper hbuilt =>
    obtain ⟨-, hcalls, hchecked⟩ := gives_buildPending hdigest hsound _ hbuilt
    refine hchecked fun item hitem => hproper item.call ?_
    rw [← hcalls _ hlast]
    exact List.mem_map_of_mem hitem
  | refreshed hpending hawaiting hbuilt =>
    obtain ⟨hkept, -⟩ := kept_of_sound hsound hpending
    refine (gives_buildRefreshed hdigest hpending hkept.built (fun item hitem => ?_) _ hbuilt).1
    exact Bool.not_eq_true _ ▸ List.any_eq_false.1 hawaiting item hitem
  | dispatched hbuilt =>
    obtain ⟨checkpoint, hpending, hkept, -⟩ := hsound
    exact (gives_buildDispatched hpending hkept.built _ _ hbuilt _ rfl).1
  | confirmed hbuilt =>
    simp only [TurnCheckpoint.buildConfirmed, bind_eq_ok, expect_eq_ok, pure_eq_ok] at hbuilt
    obtain ⟨_, -, _, hevidence, _, -, _, -, rfl⟩ := hbuilt
    exact hsound.built.confirm _ hevidence
  | resolved hbuilt =>
    simp only [TurnCheckpoint.buildResolved, bind_eq_ok] at hbuilt
    obtain ⟨_, -, hmerge⟩ := hbuilt
    exact (hsound.built.resolved hmerge).1

/-- **The loop builds no checkpoint that it would itself reject.**  In every run of a
Turn without a tool timeout, or with one whose whole milliseconds are no multiple of
`2 ^ 64` — above all, that are not zero —, whatever it is answered: a checkpoint that
one of its five writers builds passes validation, if its waits have different identities,
if no digest stands for two of its approvals and if its encoding is no longer than allowed. -/
theorem built_checkpoints_pass (hdigest : ∀ value, isHexDigest (codec.sha256 value) = true)
    (htimeout : ∀ t, timeout = some t → t / 10 ^ 6 % 2 ^ 64 ≠ 0) (hcomes : Comes codec timeout moment)
    (hbuilds : Builds codec moment built) (hapart : built.Apart codec) (hwaits : (waitIds built.calls).Nodup)
    (hsize : codec.checkpointLen built ≤ 16 * 1024 * 1024) : built.validate codec built.scope = .ok () :=
  validate_iff.2 ⟨hsize, rfl, (built_of_builds hdigest (hcomes.sound hdigest htimeout) hbuilds).passes hapart hwaits⟩

end Runs

section Loop

variable {codec : Codec} {timeout : Option ℕ} {executor : TurnExecutor} {fuel : ℕ} {suspend : Bool} {state : RunState}

theorem gives_suspendPending : Gives (state.suspendPending codec) fun suspension =>
    state.pending = some suspension.checkpoint := by
  unfold RunState.suspendPending
  refine gives_bind (gives_expected fun checkpoint hpending => gives_bind (gives_lift fun suspension hsuspension => ?_))
  simp only [TurnSuspension.fromCheckpoint, mapError_eq_ok, bind_eq_ok, pure_eq_ok] at hsuspension
  obtain ⟨waiting, -, rfl⟩ := hsuspension
  refine gives_then fun _ => gives_then fun _ => ?_
  split
  · exact gives_pure hpending
  · exact gives_then fun _ => gives_pure hpending

theorem comes_suspendPending (h : Comes codec timeout (.running state)) :
    Gives (state.suspendPending codec) fun suspension => Comes codec timeout (.stored suspension.checkpoint) :=
  gives_suspendPending.mono fun _ hpending => .suspended h hpending

theorem gives_completeBatch_pending (checkpoint : TurnCheckpoint) :
    Gives (state.completeBatch checkpoint) fun next => next.pending = none := by
  unfold RunState.completeBatch
  exact gives_then fun _ => gives_then fun _ => gives_then fun _ => gives_then fun _ => gives_then fun _ => gives_pure rfl

/-- What an iteration comes to is a moment of the Turn. -/
def PendingStep.Comes (codec : Codec) (timeout : Option ℕ) : PendingStep → Prop
  | .again next => Turn.Comes codec timeout (.running next)
  | .finished next => Turn.Comes codec timeout (.running next) ∧ next.pending = none
  | .waiting suspension => Turn.Comes codec timeout (.stored suspension.checkpoint)

theorem comes_runStage {plan : BatchExecutionPlan} (h : Comes codec timeout (.refreshed state plan)) :
    Gives (TurnExecutor.runStage codec fuel state plan) (PendingStep.Comes codec timeout) := by
  have hdispatched : Gives (state.dispatchCurrentStage codec fuel plan) fun r => Comes codec timeout (.running r.1) :=
    fun r hr => .dispatched h hr
  unfold TurnExecutor.runStage
  refine gives_bind (hdispatched.mono fun r hnext => ?_)
  dsimp only
  split
  · exact gives_pure hnext
  · exact gives_bind ((comes_suspendPending hnext).mono fun suspension hsuspension => gives_pure hsuspension)

theorem comes_pendingStep (h : Comes codec timeout (.running state)) :
    Gives (executor.pendingStep codec fuel suspend state) (PendingStep.Comes codec timeout) := by
  unfold TurnExecutor.pendingStep
  refine gives_then fun _ => gives_bind (gives_expected fun checkpoint hpending => ?_)
  split
  · exact gives_bind ((comes_suspendPending h).mono fun suspension hsuspension => gives_pure hsuspension)
  rename_i hawaiting
  split
  · rename_i hcompleted
    have hfinished : Gives (state.completeBatch checkpoint) fun next => Comes codec timeout (.running next) :=
      fun next hnext => .finished h hpending hcompleted hnext
    exact gives_bind ((hfinished.and (gives_completeBatch_pending checkpoint)).mono fun next hnext => gives_pure hnext)
  unfold TurnExecutor.runPending
  have hrefreshed : Gives (executor.refreshReady codec state) fun r => Comes codec timeout (.refreshed r.1 r.2) :=
    fun r hr => .refreshed h hpending (Bool.not_eq_true _ ▸ hawaiting) hr
  refine gives_bind (hrefreshed.mono fun r hr => gives_bind (gives_expected fun current hcurrent => gives_then fun summary => ?_))
  split
  · rename_i approval _ _
    have happroved : Gives (r.1.awaitApproval current approval) fun next => Comes codec timeout (.running next) :=
      fun next hnext => .approved hr hcurrent hnext
    exact gives_bind (happroved.mono fun next hnext => gives_pure hnext)
  · exact comes_runStage hr

theorem comes_handlePending {iterations : ℕ} (h : Comes codec timeout (.running state)) :
    Gives (executor.handlePending codec fuel suspend iterations state) fun
      | .inl next => Comes codec timeout (.running next) ∧ next.pending = none
      | .inr suspension => Comes codec timeout (.stored suspension.checkpoint) := by
  induction iterations generalizing state with
  | zero => exact gives_halt
  | succ iterations ih =>
    unfold TurnExecutor.handlePending
    refine gives_bind ((comes_pendingStep h).mono fun step hstep => ?_)
    cases step with
    | again next => exact ih hstep
    | finished next => exact gives_pure hstep
    | waiting suspension => exact gives_pure hstep

/-- A Turn that is suspended was at the moment that its checkpoint is of. -/
def ResumableTurn.Comes (codec : Codec) (timeout : Option ℕ) : ResumableTurn → Prop
  | .completed _ => True
  | .suspended suspension => Turn.Comes codec timeout (.stored suspension.checkpoint)

/-- What an iteration of `drive` comes to is a moment of the Turn. -/
def DriveStep.Comes (codec : Codec) (timeout : Option ℕ) : DriveStep → Prop
  | .again next => Turn.Comes codec timeout (.running next)
  | .exit turn => turn.Comes codec timeout

theorem gives_complete {outcome : TurnOutcome} {reason : TurnEndReason} :
    Gives (state.complete outcome reason) (ResumableTurn.Comes codec timeout) := by
  unfold RunState.complete
  exact gives_then fun _ => gives_then fun _ => gives_pure trivial

theorem comes_driveModel (h : Comes codec timeout (.running state)) (hpending : state.pending = none) :
    Gives (executor.driveModel codec state) (DriveStep.Comes codec timeout) := by
  unfold TurnExecutor.driveModel
  split
  · exact gives_bind (gives_complete.mono fun turn hturn => gives_pure hturn)
  rename_i hmax
  have hasked : Gives state.modelStep fun r => r.2.outcome = .toolCalls → Comes codec timeout (.asked r.1) :=
    fun r hr houtcome => .asked h hpending (Nat.lt_of_not_le hmax) hr houtcome
  refine gives_bind (hasked.mono fun r hr => ?_)
  dsimp only
  split
  · exact gives_bind (gives_complete.mono fun turn hturn => gives_pure hturn)
  rename_i houtcome
  have hbatch : Gives (executor.initializePending codec r.1) fun next => Comes codec timeout (.running next) :=
    fun next hnext => .batch (hr (not_not.1 houtcome)) hnext
  exact gives_bind (hbatch.mono fun next hnext => gives_pure hnext)

theorem comes_driveStep (h : Comes codec timeout (.running state)) :
    Gives (executor.driveStep codec fuel suspend state) (DriveStep.Comes codec timeout) := by
  have hsettled : Gives (executor.settlePending codec fuel suspend state) fun
      | .inl next => Comes codec timeout (.running next) ∧ next.pending = none
      | .inr suspension => Comes codec timeout (.stored suspension.checkpoint) := by
    unfold TurnExecutor.settlePending
    split
    · rename_i hpending
      exact gives_pure ⟨h, hpending⟩
    · exact comes_handlePending h
  unfold TurnExecutor.driveStep
  refine gives_then fun _ => gives_bind (hsettled.mono fun r hr => ?_)
  cases r with
  | inl next => exact comes_driveModel hr.1 hr.2
  | inr suspension => exact gives_pure hr

theorem comes_driveLoop {iterations : ℕ} (h : Comes codec timeout (.running state)) :
    Gives (executor.driveLoop codec fuel suspend iterations state) (ResumableTurn.Comes codec timeout) := by
  induction iterations generalizing state with
  | zero => exact gives_halt
  | succ iterations ih =>
    unfold TurnExecutor.driveLoop
    refine gives_bind ((comes_driveStep h).mono fun step hstep => ?_)
    cases step with
    | again next => exact ih hstep
    | exit turn => exact gives_pure hstep

theorem comes_run (h : Comes codec timeout (.running { state with resumeBoundary := none })) :
    Gives (executor.run codec fuel suspend state) (ResumableTurn.Comes codec timeout) := by
  have hdrive : Gives (executor.drive codec fuel suspend state) (ResumableTurn.Comes codec timeout) := by
    unfold TurnExecutor.drive
    dsimp only
    split
    · exact comes_driveLoop h
    · exact gives_then fun _ => comes_driveLoop h
  unfold TurnExecutor.run
  dsimp only
  split
  · refine gives_bind (gives_attempt (hdrive.mono fun turn hturn => gives_pure hturn) fun error => ?_)
    exact gives_then fun _ => gives_throw
  · refine gives_then fun _ => gives_bind (gives_attempt (hdrive.mono fun turn hturn => gives_pure hturn) fun error => ?_)
    exact gives_then fun _ => gives_throw

theorem comes_startResumable (request : TurnRequest) (deadline : TurnDeadline) :
    Gives (executor.startResumable codec fuel request deadline) (ResumableTurn.Comes codec executor.toolTimeout) := by
  unfold TurnExecutor.startResumable
  refine gives_then fun _ => gives_then fun tightened => gives_bind (gives_lift fun state hstate => comes_run ?_)
  have hstart : Comes codec executor.toolTimeout (.running state) := .start hstate
  have hboundary : state.resumeBoundary = none := by
    simp only [RunState.withDeadline, bind_eq_ok, pure_eq_ok] at hstate
    obtain ⟨_, -, _, -, rfl⟩ := hstate
    rfl
  rwa [← hboundary]

/-- **What a resume merges** into a stored checkpoint is stored again. -/
theorem comes_mergeResume {suspension : TurnSuspension} {input : ResumeInput} {scope : ToolExecutionScope}
    {deadline : TurnDeadline} (h : Comes codec timeout (.stored suspension.checkpoint)) :
    Gives (executor.mergeResume codec suspension input scope deadline) fun merged => Comes codec timeout (.stored merged) := by
  unfold TurnExecutor.mergeResume
  refine gives_then fun _ => gives_then fun _ => gives_then fun _ => gives_then fun _ => gives_then fun sight =>
    gives_lift fun merged hmerged => ?_
  have hmerge := mapError_eq_ok.1 hmerged
  cases input with
  | approvalConfirmed confirmation => exact .confirmed h hmerge
  | externalResolved resolutions => exact .resolved h hmerge

theorem comes_resumeCheckpoint {checkpoint : TurnCheckpoint} {scope : ToolExecutionScope} {deadline : TurnDeadline}
    (h : Comes codec timeout (.stored checkpoint)) :
    Gives (executor.resumeCheckpoint codec fuel checkpoint scope deadline) (ResumableTurn.Comes codec timeout) := by
  unfold TurnExecutor.resumeCheckpoint
  exact gives_then fun _ => gives_then fun _ => gives_bind (gives_lift fun state hstate => comes_run (.resumed h hstate))

end Loop

section Rounding

def zeroDigest : Codec where
  sha256 := fun _ => "0000000000000000000000000000000000000000000000000000000000000000"
  checkpointLen := fun _ => 0

def emptyPolicy : PolicyEngine where
  manifests := ∅
  deniedTools := []
  workspace := none
  progress := none

def courseExecutor : TurnExecutor :=
  { batchExecutor with policyEngine := some emptyPolicy, executionKey := some readyBatch.scope.execution }

def courseRequest : TurnRequest where
  turnId := "t"
  modelRequest := readyBatch.modelRequest
  config := { maxSteps := 1, maxToolCalls := none, deadline := none }

def courseAnswers : Unit → (o : TurnOp) → o.Answer × Unit
  | _, .look => ({ cancelled := false, now := 0, nowMs := 0 }, ())
  | _, .cutoff _ => (.ok 0, ())
  | _, .boundary _ => (.answered (.ok ()), ())
  | _, .record _ => (.ok (), ())
  | _, .recordRequest _ => (.ok (), ())
  | _, .recordCheckpoint _ => (.ok (), ())
  | _, .step _ _ => (.answered (.ok { response := { content := [.toolCall batchCall.call] }, outcome := .toolCalls }), ())
  | _, .prepare _ => (.answered (.ok { batchCall with digest := zeroDigest.sha256 .null }), ())
  | _, .execute _ => ((), ())
  | _, .progress _ => (none, ())
  | _, .approval _ => (.answered (), ())
  | _, .poll => (0, ())
  | _, .planned _ _ => ((), ())

def courseState (timeout : Option ℕ) : RunState where
  turnId := "t"
  modelRequest := readyBatch.modelRequest
  inputMessageCount := 0
  steps := []
  config := courseRequest.config
  deadline := none
  deadlineAtMs := none
  toolCallsUsed := 0
  dispatch := readyBatch.dispatch
  toolTimeout := timeout
  pending := none
  resumed := false
  resumeBoundary := none

def courseAsked (timeout : Option ℕ) : RunState :=
  { courseState timeout with
    modelRequest := { readyBatch.modelRequest with requestId := "t-step-0" }
    steps := readyBatch.steps }

def courseBatch (timeout : Option ℕ) : TurnCheckpoint :=
  ((courseAsked timeout).batch readyBatch.scope
    [{ call := batchCall.call
       prepared := some { batchCall with digest := zeroDigest.sha256 .null }
       charged := false
       state := .ready }]).checkpoint zeroDigest

def courseTimeouts : List (Option ℕ) := [some 500000, some 1000000]

theorem course_asks : ∀ timeout ∈ courseTimeouts, (courseState timeout).modelStep.run.run courseAnswers () =
    some (.ok (courseAsked timeout, readyBatch.steps.head (by decide)), ()) := by decide +kernel

theorem course_builds : ∀ timeout ∈ courseTimeouts,
    (courseExecutor.buildPending zeroDigest (courseAsked timeout)).run.run courseAnswers () =
      some (.ok (courseBatch timeout), ()) := by decide +kernel

theorem course_comes {timeout : Option ℕ} (h : timeout ∈ courseTimeouts) :
    Comes zeroDigest timeout (.asked (courseAsked timeout)) := by
  have hstart : RunState.withDeadline courseRequest readyBatch.dispatch timeout ⟨none, none, none⟩ =
      .ok (courseState timeout) := rfl
  exact .asked (.start hstart) rfl Nat.zero_lt_one (Prog.returns_of_run (course_asks timeout h)) rfl

theorem course_built {timeout : Option ℕ} (h : timeout ∈ courseTimeouts) :
    Builds zeroDigest (.asked (courseAsked timeout)) (courseBatch timeout) :=
  .initialized rfl (by decide +kernel) (Prog.returns_of_run (course_builds timeout h))

/-- A tool timeout of half a millisecond leaves a checkpoint with the timeout zero. -/
theorem not_built_checkpoints_pass : ¬∀ timeout : Option ℕ, (∀ t, timeout = some t → 0 < t) →
    ∀ moment built, Comes zeroDigest timeout moment → Builds zeroDigest moment built → built.Apart zeroDigest →
      (waitIds built.calls).Nodup → zeroDigest.checkpointLen built ≤ 16 * 1024 * 1024 →
        built.validate zeroDigest built.scope = .ok () := by
  intro h
  have hmem : some 500000 ∈ courseTimeouts := by decide
  have hvalid := h (some 500000) (fun t ht => by obtain rfl := Option.some.inj ht; decide) _ _ (course_comes hmem)
    (course_built hmem) (fun _ happroval => absurd happroval List.not_mem_nil) List.nodup_nil (Nat.zero_le _)
  exact (validate_iff.1 hvalid).2.2.framed.timeout rfl

/-- With a whole millisecond the batch of the same call passes. -/
theorem built_checkpoints_pass_millisecond :
    (courseBatch (some 1000000)).validate zeroDigest (courseBatch (some 1000000)).scope = .ok () := by
  have hmem : some 1000000 ∈ courseTimeouts := by decide
  have hdigest : isHexDigest (zeroDigest.sha256 .null) = true := by decide +kernel
  refine built_checkpoints_pass (fun _ => hdigest) (fun t ht => ?_) (course_comes hmem) (course_built hmem)
    (fun _ happroval => absurd happroval List.not_mem_nil) List.nodup_nil (Nat.zero_le _)
  obtain rfl := Option.some.inj ht
  decide

end Rounding

end Turn
end Kolyan
