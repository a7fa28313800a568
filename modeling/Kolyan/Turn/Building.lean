/-
# What the loop builds

Five functions of the Turn write a checkpoint: `initialize_pending`, `refresh_ready`,
`dispatch_current_stage` (`kolyan-core/src/turn/planning.rs`, `dispatch.rs`) and the two
merges of `checkpoint.rs`.  Each of them validates what it has written.  Here are the
writers up to that validation (`buildPending`, `buildRefreshed`, `buildDispatched`;
`initializePending_eq` and its siblings put the validation back), and what a checkpoint
is that one of them has built (`Built`).  It passes validation, its size apart, where its
waits are different ones and its approvals have no digest in common (`Built.passes`).

Most of a checkpoint is its frame, which no writer changes once the batch is there
(`frame`, `Framed.of_frame`).
-/

import Kolyan.Turn.Passing

namespace Kolyan
namespace Turn

open Checks Policy Threads Fallible

section Writers

variable (codec : Codec)

/-- `initialize_pending`, up to the checkpoint that it validates. -/
def TurnExecutor.buildPending (executor : TurnExecutor) (state : RunState) : TurnProg TurnCheckpoint := do
  let policy ← Fallible.lift (expect executor.policyEngine
    (.invalidRequest "tool execution requires a trusted policy engine"))
  let scope ← Fallible.lift (executor.toolScope state.turnId state.stepId)
  let step ← expected state.steps.getLast?
  let calls ← Fallible.lift (mapError .tool (toolCallBatch (toolCalls step.response.content)))
  Fallible.lift (reject (state.fitsBudget calls = false) .toolBudgetExceeded)
  match calls.find? (policy.hasNoProgress · (state.modelRequest.messages.drop state.inputMessageCount)) with
  | some call => throw (.noProgress call.name)
  | none => do
      let entries ← state.prepareEntries codec calls
      return (state.batch scope entries).checkpoint codec

/-- `refresh_ready`, up to the checkpoint that it validates. -/
def TurnExecutor.buildRefreshed (executor : TurnExecutor) (state : RunState) :
    TurnProg (TurnCheckpoint × BatchExecutionPlan) := do
  let checkpoint ← expected state.pending
  let checkpoint ← state.refreshCalls codec checkpoint (checkpoint.ready.map (·.call))
  state.check
  let policy ← Fallible.lift (expect executor.policyEngine
    (.invalidRequest "tool execution requires a trusted policy engine"))
  let checkpoint := checkpoint.recount
  let preparations ← expected (checkpoint.ready.mapM (·.prepared))
  let plan ← Fallible.lift (mapError (fun error => .invalidRequest error.toString)
    (policy.resolvePreparedBatch codec.sha256 (state.policyContext checkpoint) preparations))
  let checkpoint ← state.applyDecisions codec checkpoint plan.decisions
  return ((checkpoint.restage state.dispatch.mode plan).recount, plan)

/-- `dispatch_current_stage`, up to the checkpoint that it validates; without one, whether
the batch goes on. -/
def RunState.buildDispatched (fuel : ℕ) (state : RunState) (plan : BatchExecutionPlan) :
    TurnProg (Bool ⊕ TurnCheckpoint) := do
  let checkpoint ← expected state.pending
  match checkpoint.stages[checkpoint.stageIndex]? with
  | none => return .inl true
  | some stage => do
      let invocations ← checkpoint.invocations codec plan stage
      if invocations.isEmpty then return .inl false
      else do
        let checkpoint ← match state.dispatch.mode with
          | .serial => state.dispatchSerial fuel checkpoint invocations
          | .parallel => state.dispatchParallel fuel checkpoint invocations
        return .inr checkpoint.recount

/-- `merge_approval`, up to the checkpoint that it validates. -/
def TurnCheckpoint.buildConfirmed (checkpoint : TurnCheckpoint) (confirmation : ApprovalConfirmation)
    (expectedScope : ToolExecutionScope) (nowMs : ℕ) : Except CheckpointError TurnCheckpoint := do
  checkpoint.validate codec expectedScope
  identifier confirmation.evidenceId
  let approval ← expect (checkpoint.approvals.find? (·.approvalId = confirmation.approvalId))
    (.invalid "unknown approval")
  reject (checkpoint.confirms confirmation expectedScope nowMs approval = false)
    (.invalid "approval confirmation binding is stale, resolved or foreign")
  return checkpoint.confirm confirmation.approvalId confirmation.evidenceId

/-- `merge_external`, up to the checkpoint that it validates. -/
def TurnCheckpoint.buildResolved (checkpoint : TurnCheckpoint) (resolutions : List ExternalResolution)
    (expectedScope : ToolExecutionScope) : Except CheckpointError TurnCheckpoint := do
  checkpoint.validate codec expectedScope
  checkpoint.mergeResolutions [] resolutions

/-- What a step of the Turn does with what it has built. -/
def RunState.validated (state : RunState) (checkpoint : TurnCheckpoint) : TurnProg RunState := do
  Fallible.lift (mapError checkpointError (checkpoint.validate codec checkpoint.scope))
  return { state with pending := some checkpoint }

theorem mergeApproval_eq (checkpoint : TurnCheckpoint) (confirmation : ApprovalConfirmation) (scope : ToolExecutionScope)
    (nowMs : ℕ) : checkpoint.mergeApproval codec confirmation scope nowMs = (do
      let merged ← checkpoint.buildConfirmed codec confirmation scope nowMs
      merged.validate codec scope
      return merged) := by
  unfold TurnCheckpoint.mergeApproval TurnCheckpoint.buildConfirmed
  simp only [bind_assoc, pure_bind]

theorem mergeExternal_eq (checkpoint : TurnCheckpoint) (resolutions : List ExternalResolution)
    (scope : ToolExecutionScope) : checkpoint.mergeExternal codec resolutions scope = (do
      let merged ← checkpoint.buildResolved codec resolutions scope
      merged.validate codec scope
      return merged) := by
  unfold TurnCheckpoint.mergeExternal TurnCheckpoint.buildResolved
  simp only [bind_assoc]

theorem lift_mapError_then {ε ε' α β : Type} {x : Except ε Unit} {f : ε → ε'} {a : α} {next : α → PortProg ε' β} :
    (Fallible.lift (mapError f (do x; return a)) >>= next : PortProg ε' β) = Fallible.lift (mapError f x) >>= fun _ => next a := by
  cases x with
  | ok u => rfl
  | error e => rfl

theorem initializePending_eq (executor : TurnExecutor) (state : RunState) :
    executor.initializePending codec state = (do
      let checkpoint ← executor.buildPending codec state
      state.validated codec checkpoint) := by
  unfold TurnExecutor.initializePending TurnExecutor.buildPending
  simp only [bind_assoc]
  refine bind_congr fun policy => bind_congr fun scope => bind_congr fun step => bind_congr fun calls => bind_congr fun _ => ?_
  cases calls.find? (policy.hasNoProgress · (state.modelRequest.messages.drop state.inputMessageCount)) with
  | some call => rfl
  | none =>
    dsimp only
    rw [bind_assoc]
    refine bind_congr fun entries => ?_
    rw [pure_bind]
    exact lift_mapError_then

theorem refreshReady_eq (executor : TurnExecutor) (state : RunState) :
    executor.refreshReady codec state = (do
      let (checkpoint, plan) ← executor.buildRefreshed codec state
      let state ← state.validated codec checkpoint
      let recorded ← ask (.recordCheckpoint checkpoint)
      Fallible.lift recorded
      ask (.planned plan checkpoint)
      return (state, plan)) := by
  unfold TurnExecutor.refreshReady TurnExecutor.buildRefreshed RunState.validated
  simp only [bind_assoc, pure_bind]

theorem dispatchCurrentStage_eq (fuel : ℕ) (state : RunState) (plan : BatchExecutionPlan) :
    state.dispatchCurrentStage codec fuel plan = (do
      match ← state.buildDispatched codec fuel plan with
      | .inl progressed => return (state, progressed)
      | .inr checkpoint => do
          let state ← state.validated codec checkpoint
          return (state, true)) := by
  unfold RunState.dispatchCurrentStage RunState.buildDispatched RunState.validated
  simp only [bind_assoc, pure_bind]
  refine bind_congr fun checkpoint => ?_
  cases checkpoint.stages[checkpoint.stageIndex]? with
  | none => rfl
  | some stage =>
    dsimp only
    rw [bind_assoc]
    refine bind_congr fun invocations => ?_
    split
    · rfl
    · cases state.dispatch.mode with
      | serial => simp only [bind_assoc, pure_bind]
      | parallel => simp only [bind_assoc, pure_bind]

end Writers

section Frames

/-- A checkpoint without what its writers change. -/
def TurnCheckpoint.frame (checkpoint : TurnCheckpoint) : TurnCheckpoint :=
  { checkpoint with calls := [], stages := [], stageIndex := 0, approvals := [],
                    budget := { checkpoint.budget with toolCallsUsed := 0 } }

variable {old new : TurnCheckpoint}

theorem scope_of_frame (h : new.frame = old.frame) : new.scope = old.scope := (congrArg TurnCheckpoint.scope h :)

theorem prior_of_frame (h : new.frame = old.frame) : new.budget.priorToolCallsUsed = old.budget.priorToolCallsUsed :=
  (congrArg (·.budget.priorToolCallsUsed) h :)

theorem timeout_of_frame (h : new.frame = old.frame) : new.budget.toolTimeoutMs = old.budget.toolTimeoutMs :=
  (congrArg (·.budget.toolTimeoutMs) h :)

theorem TurnCheckpoint.Framed.of_frame (h : old.Framed) (hframe : new.frame = old.frame)
    (hcalls : new.calls.map (·.call) = old.calls.map (·.call)) : new.Framed := by
  have hscope := scope_of_frame hframe
  have hprior := prior_of_frame hframe
  have hsteps : new.steps = old.steps := (congrArg TurnCheckpoint.steps hframe :)
  have hrequest : new.modelRequest = old.modelRequest := (congrArg TurnCheckpoint.modelRequest hframe :)
  have hinput : new.inputMessageCount = old.inputMessageCount := (congrArg TurnCheckpoint.inputMessageCount hframe :)
  have hmax : new.budget.maxSteps = old.budget.maxSteps := (congrArg (·.budget.maxSteps) hframe :)
  have hlimit : new.budget.maxToolCalls = old.budget.maxToolCalls := (congrArg (·.budget.maxToolCalls) hframe :)
  have hlength : new.calls.length = old.calls.length := by
    have hlength := congrArg List.length hcalls
    rwa [List.length_map, List.length_map] at hlength
  refine
    { scope := hscope ▸ h.scope
      identity := (congrArg TurnCheckpoint.checkpointId hframe :) ▸ h.identity
      schema := (congrArg TurnCheckpoint.schemaVersion hframe :).trans h.schema
      next := ?_, steps_le := ?_, input_le := ?_, timeout := ?_, last := ?_, names := ?_, history := ?_, fits := ?_
      limit := ?_ }
  · rw [hsteps, ← h.next]
    exact (congrArg TurnCheckpoint.nextStepIndex hframe :)
  · rw [hsteps, hmax]
    exact h.steps_le
  · rw [hinput, hrequest]
    exact h.input_le
  · rw [timeout_of_frame hframe]
    exact h.timeout
  · rw [hsteps, hscope, hcalls]
    exact h.last
  · rw [hsteps, hscope]
    exact h.names
  · rw [hsteps, hrequest, hinput, hprior]
    exact h.history
  · rw [hprior, hlength]
    exact h.fits
  · rw [hprior, hlength, hlimit]
    exact h.limit

end Frames

section Naming

variable (codec : Codec)

/-- What `host_identity` takes the digest of. -/
def coordinate (kind : String) (binding : Value) : Value :=
  .array [.string "kolyan.core.coordinate.v1", .string kind, binding]

/-- What an approval is named after. -/
def CheckpointApproval.binding (approval : CheckpointApproval) : Value :=
  .array [approval.scope.toValue, .string approval.prepared.call.id, .string approval.prepared.digest,
    .string approval.policyRevision]

/-- An approval under the identity that `refresh_ready` gives it. -/
def CheckpointApproval.Named (approval : CheckpointApproval) : Prop :=
  approval.approvalId = hostIdentity codec "approval" approval.binding

/-- No digest stands for the bindings of two approvals. -/
def TurnCheckpoint.Apart (checkpoint : TurnCheckpoint) : Prop :=
  ∀ a ∈ checkpoint.approvals, ∀ b ∈ checkpoint.approvals,
    codec.sha256 (coordinate "approval" a.binding) = codec.sha256 (coordinate "approval" b.binding) →
      a.binding = b.binding

/-- **What a writer has built.**  Of what passes validation it says all but that the waits
and the identities of the approvals are different ones. -/
structure TurnCheckpoint.Built (checkpoint : TurnCheckpoint) : Prop where
  framed : checkpoint.Framed
  batch : checkpoint.calls ≠ []
  calls : ∀ item ∈ checkpoint.calls, item.Passes codec checkpoint.scope
  unique : (checkpoint.calls.map (·.call.id)).Nodup
  cursor : checkpoint.stageIndex ≤ checkpoint.stages.length
  staged : StagesPass checkpoint.calls checkpoint.stages checkpoint.stageIndex
  used : checkpoint.budget.toolCallsUsed = checkpoint.budget.priorToolCallsUsed + charged checkpoint.calls
  approvals : ∀ approval ∈ checkpoint.approvals, approval.Passes codec checkpoint.scope checkpoint.calls
  single : (checkpoint.approvals.map (·.prepared.call.id)).Nodup
  named : ∀ approval ∈ checkpoint.approvals, approval.Named codec
  bounded : ∀ ms, checkpoint.budget.toolTimeoutMs = some ms → ms < 2 ^ 64

variable {codec} {checkpoint : TurnCheckpoint}

/-- **What is built passes**, with waits and digests that are different ones. -/
theorem TurnCheckpoint.Built.passes (h : checkpoint.Built codec) (hapart : checkpoint.Apart codec)
    (hwaits : (waitIds checkpoint.calls).Nodup) : checkpoint.Passes codec where
  framed := h.framed
  batch := h.batch
  calls := h.calls
  unique := h.unique
  waits := hwaits
  cursor := h.cursor
  staged := h.staged
  used := h.used
  approvals := h.approvals
  apart := by
    refine (List.pairwise_map.1 h.single).imp_of_mem fun {a b} ha hb hne => ⟨fun hid => hne ?_, hne⟩
    rw [h.named a ha, h.named b hb] at hid
    have hbinding := hapart a ha b hb ((String.append_right_inj _).1 hid)
    rw [CheckpointApproval.binding, CheckpointApproval.binding] at hbinding
    simp only [Value.array.injEq, List.cons.injEq, Value.string.injEq] at hbinding
    exact hbinding.2.1

theorem isAsciiAlphanumeric_of_isHexDigit {c : Char} (h : isHexDigit c = true) : isAsciiAlphanumeric c = true := by
  simp only [isHexDigit, isAsciiAlphanumeric, Bool.or_eq_true, Bool.and_eq_true, decide_eq_true_eq] at h ⊢
  have hf : 'f' ≤ 'z' := by decide
  have hF : 'F' ≤ 'Z' := by decide
  rcases h with (hdigit | ⟨ha, hle⟩) | ⟨hA, hle⟩
  · exact .inl (.inl hdigit)
  · exact .inl (.inr ⟨ha, hle.trans hf⟩)
  · exact .inr ⟨hA, hle.trans hF⟩

theorem isIdentifier_digest {kind digest : String} (hkind : isIdentifier kind = true) (hshort : kind.utf8ByteSize ≤ 128)
    (hdigest : isHexDigest digest = true) : isIdentifier (kind ++ "-" ++ digest) = true := by
  simp only [isHexDigest, isIdentifier, Bool.and_eq_true, decide_eq_true_eq, List.all_eq_true, Bool.not_eq_true'] at *
  obtain ⟨⟨-, -⟩, hchars⟩ := hkind
  obtain ⟨hsize, hhex⟩ := hdigest
  have hdash : ("-" : String).utf8ByteSize = 1 := by decide
  have hlength : (kind ++ "-" ++ digest).utf8ByteSize = kind.utf8ByteSize + 1 + 64 := by
    rw [String.utf8ByteSize_append, String.utf8ByteSize_append, hdash, hsize]
  refine ⟨⟨Bool.eq_false_iff.2 fun hempty => ?_, by omega⟩, fun c hc => ?_⟩
  · rw [String.isEmpty_iff.1 hempty] at hlength
    exact absurd hlength (by rw [String.utf8ByteSize_empty]; omega)
  · rw [String.toList_append, String.toList_append, List.mem_append, List.mem_append] at hc
    rcases hc with (hc | hc) | hc
    · exact hchars c hc
    · obtain rfl := List.mem_singleton.1 hc
      rfl
    · simp [isAsciiAlphanumeric_of_isHexDigit (hhex c hc)]

theorem identifier_hostIdentity (hdigest : ∀ value, isHexDigest (codec.sha256 value) = true) {kind : String}
    (hkind : isIdentifier kind = true) (hshort : kind.utf8ByteSize ≤ 128) (binding : Value) :
    identifier (hostIdentity codec kind binding) = .ok () := by
  have hidentity : isIdentifier (hostIdentity codec kind binding) = true :=
    isIdentifier_digest hkind hshort (hdigest (coordinate kind binding))
  rw [identifier, reject_eq_ok, hidentity]
  exact Bool.noConfusion

end Naming

section Batches

variable {codec : Codec} {state : RunState}

/-- **A preparation that a Turn accepts** is valid and of the call. -/
theorem gives_prepareReady_valid (call : ToolCall) :
    Gives (state.prepareReady codec call) fun prepared =>
      prepared.validate codec.sha256 = .ok () ∧ prepared.call = call := by
  unfold RunState.prepareReady
  refine gives_then fun _ => gives_then fun _ => gives_then fun _ => gives_then fun prepared => ?_
  refine gives_bind (gives_lift fun _ hvalid => gives_bind (gives_reject fun hcall => gives_pure ?_))
  exact ⟨mapError_eq_ok.1 hvalid, not_not.1 hcall⟩

theorem gives_prepareFailure (call : ToolCall) (error : ToolError) :
    Gives (state.prepareFailure call error) fun result => result.callId = call.id ∧ result.isError = true := by
  unfold RunState.prepareFailure
  refine gives_then fun _ => gives_then fun _ => ?_
  split
  · exact gives_throw
  · exact gives_then fun _ => gives_pure ⟨rfl, rfl⟩

theorem passes_failed {call : ToolCall} {result : ToolResult} (hresult : result.callId = call.id ∧ result.isError = true)
    (hproper : properCall call = true) (scope : ToolExecutionScope) :
    ({ call, prepared := none, charged := true, state := .completed result none } : CheckpointCall).Passes codec scope :=
  ⟨hproper, nofun, rfl, hresult.1, hresult.2⟩

theorem passes_ready {call : ToolCall} {prepared : PreparedCall}
    (hprepared : prepared.validate codec.sha256 = .ok () ∧ prepared.call = call) (hproper : properCall call = true) (scope : ToolExecutionScope) :
    ({ call, prepared := some prepared, charged := false, state := .ready } : CheckpointCall).Passes codec scope := by
  refine ⟨hproper, fun current hcurrent => ?_, rfl, nofun⟩
  obtain rfl := Option.some.inj hcurrent
  exact hprepared

theorem gives_prepareEntry (call : ToolCall) : Gives (state.prepareEntry codec call) fun item => item.call = call ∧
    (properCall item.call = true → ∀ scope, item.Passes codec scope) := by
  unfold RunState.prepareEntry
  refine gives_bind (gives_attempt (Q := fun r => Gives _ _) ?_ fun error => ?_)
  · exact (gives_prepareReady_valid call).mono fun prepared hprepared =>
      gives_pure ⟨rfl, passes_ready hprepared⟩
  · exact gives_bind ((gives_prepareFailure call error).mono fun result hresult =>
      gives_pure ⟨rfl, passes_failed hresult⟩)

/-- **The entries of a new batch** are those of its calls, and each passes, if its identity
and its name do. -/
theorem gives_prepareEntries (calls : List ToolCall) :
    Gives (state.prepareEntries codec calls) fun entries => entries.map (·.call) = calls ∧
      ∀ item ∈ entries, properCall item.call = true → ∀ scope, item.Passes codec scope := by
  induction calls with
  | nil => exact gives_pure ⟨rfl, fun _ hmem => absurd hmem List.not_mem_nil⟩
  | cons call calls ih =>
    unfold RunState.prepareEntries
    refine gives_bind ((gives_prepareEntry call).mono fun item hitem => ?_)
    refine gives_bind (ih.mono fun items hitems => gives_pure ⟨?_, List.forall_mem_cons.2 ⟨hitem.2, hitems.2⟩⟩)
    rw [List.map_cons, hitem.1, hitems.1]

/-- **What a Turn has told so far**: its Steps by their names, the messages of those of
them that are `past`, and a tool timeout that is not rounded off. -/
structure RunState.Told (state : RunState) (past : List StepResult) : Prop where
  timed : ∀ timeout, state.toolTimeout = some timeout → timeout / 10 ^ 6 % 2 ^ 64 ≠ 0
  names : ∀ index step, state.steps[index]? = some step → step.stepId = stepName state.turnId index
  input_le : state.inputMessageCount ≤ state.modelRequest.messages.length
  history : checkHistory state.modelRequest.messages state.inputMessageCount 0 past =
    .ok (state.modelRequest.messages.length, state.toolCallsUsed)

/-- A Turn whose last Step asks for tool calls. -/
structure RunState.Asks (state : RunState) : Prop where
  told : state.Told state.steps.dropLast
  steps_le : state.steps.length ≤ state.config.maxSteps
  last : ∃ last, state.steps.getLast? = some last ∧ last.outcome = .toolCalls

/-- **A Turn that carries a checkpoint**: the frame of the checkpoint is what the Turn has told. -/
structure RunState.Carries (state : RunState) (checkpoint : TurnCheckpoint) : Prop where
  timed : ∀ timeout, state.toolTimeout = some timeout → timeout / 10 ^ 6 % 2 ^ 64 ≠ 0
  turn : checkpoint.scope.execution.turnId = state.turnId
  steps : checkpoint.steps = state.steps
  messages : checkpoint.modelRequest.messages = state.modelRequest.messages
  input : checkpoint.inputMessageCount = state.inputMessageCount

theorem toolScope_eq_ok {executor : TurnExecutor} {turnId stepId : String} {scope : ToolExecutionScope}
    (h : executor.toolScope turnId stepId = .ok scope) :
    scope.validate = .ok () ∧ scope.execution.turnId = turnId ∧ scope.stepId = stepId := by
  simp only [TurnExecutor.toolScope, bind_eq_ok, expect_eq_ok, reject_eq_ok, not_not, mapError_eq_ok, pure_eq_ok] at h
  obtain ⟨execution, -, _, hturn, _, hvalid, rfl⟩ := h
  exact ⟨hvalid, hturn, rfl⟩

theorem RunState.Told.timeout {past : List StepResult} (h : state.Told past) :
    state.toolTimeout.map (· / 10 ^ 6 % 2 ^ 64) ≠ some 0 := by
  intro hzero
  obtain ⟨timeout, htimeout, hrounded⟩ := Option.map_eq_some_iff.1 hzero
  exact h.timed timeout htimeout hrounded

theorem fitsBudget_iff {calls : List ToolCall} : state.fitsBudget calls = true ↔
    state.toolCallsUsed + calls.length < 2 ^ 64 ∧
      ∀ limit, state.config.maxToolCalls = some limit → state.toolCallsUsed + calls.length ≤ limit := by
  rw [RunState.fitsBudget, checkedAdd]
  split_ifs with hlt
  · rw [Option.any_some, and_iff_right hlt]
    cases state.config.maxToolCalls with
    | none => simp
    | some limit => simp
  · exact ⟨fun h => (by cases h), fun h => absurd h.1 hlt⟩

section Built

variable {scope : ToolExecutionScope} {calls : List ToolCall} {entries : List CheckpointCall} {last : StepResult}

theorem RunState.Asks.framed (h : state.Asks) (hdigest : ∀ value, isHexDigest (codec.sha256 value) = true)
    (hscope : scope.validate = .ok () ∧ scope.execution.turnId = state.turnId ∧ scope.stepId = state.stepId)
    (hlast : state.steps.getLast? = some last) (houtcome : last.outcome = .toolCalls)
    (hentries : entries.map (·.call) = toolCalls last.response.content)
    (hfits : state.fitsBudget (entries.map (·.call)) = true) : ((state.batch scope entries).checkpoint codec).Framed := by
  obtain ⟨hvalid, hturn, hstep⟩ := hscope
  rw [fitsBudget_iff, List.length_map] at hfits
  have hname : last.stepId = scope.stepId := by
    rw [hstep]
    refine h.told.names (state.steps.length - 1) last ?_
    rw [← List.getLast?_eq_getElem?, hlast]
  exact
    { scope := hvalid
      identity := identifier_hostIdentity hdigest (by decide) (by decide) _
      schema := rfl
      next := rfl
      steps_le := h.steps_le
      input_le := h.told.input_le
      timeout := h.told.timeout
      last := ⟨last, hlast, hname, houtcome, hentries.symm⟩
      names := fun index step hindex => (h.told.names index step hindex).trans (by rw [← hturn]; rfl)
      history := h.told.history
      fits := hfits.1
      limit := hfits.2 }

/-- **A new batch**: one stage of all its calls, none of which has run. -/
theorem RunState.Asks.built (h : state.Asks) (hdigest : ∀ value, isHexDigest (codec.sha256 value) = true)
    (hscope : scope.validate = .ok () ∧ scope.execution.turnId = state.turnId ∧ scope.stepId = state.stepId)
    (hlast : state.steps.getLast? = some last) (houtcome : last.outcome = .toolCalls)
    (hentries : entries.map (·.call) = toolCalls last.response.content) (hbatch : entries ≠ [])
    (hunique : (entries.map (·.call.id)).Nodup) (hfits : state.fitsBudget (entries.map (·.call)) = true)
    (hpass : ∀ item ∈ entries, ∀ scope, item.Passes codec scope) :
    ((state.batch scope entries).checkpoint codec).Built codec where
  framed := h.framed hdigest hscope hlast houtcome hentries hfits
  batch := hbatch
  calls := fun item hitem => hpass item hitem scope
  unique := hunique
  cursor := Nat.zero_le _
  staged :=
    { nonempty := fun stage hstage => by
        obtain rfl := List.mem_singleton.1 hstage
        exact fun hempty => hbatch (List.map_eq_nil_iff.1 hempty)
      once := .of_eq (List.flatten_singleton ..)
      before := fun i stage _ hlt => absurd hlt (Nat.not_lt_zero i)
      after := fun i stage hi hlt => by
        have hlength : i < 1 := (List.getElem?_eq_some_iff.1 hi).1
        exact absurd hlt (by omega) }
  used := rfl
  approvals := fun _ hmem => absurd hmem List.not_mem_nil
  single := List.nodup_nil
  named := fun _ hmem => absurd hmem List.not_mem_nil
  bounded := fun ms hms => by
    obtain ⟨timeout, -, rfl⟩ := Option.map_eq_some_iff.1 hms
    exact Nat.mod_lt _ (by decide)

end Built

theorem toolCallBatch_ne_nil {calls batch : List ToolCall} (h : toolCallBatch calls = .ok batch) : calls ≠ [] := by
  simp only [toolCallBatch, bind_eq_ok, reject_eq_ok] at h
  obtain ⟨_, hne, -⟩ := h
  exact hne

/-- **What `initialize_pending` builds**, from calls whose identities and names pass. -/
theorem gives_buildPending (hdigest : ∀ value, isHexDigest (codec.sha256 value) = true) {executor : TurnExecutor}
    (h : state.Asks) : Gives (executor.buildPending codec state) fun checkpoint => state.Carries checkpoint ∧
      (∀ last, state.steps.getLast? = some last → checkpoint.calls.map (·.call) = toolCalls last.response.content) ∧
      ((∀ item ∈ checkpoint.calls, properCall item.call = true) → checkpoint.Built codec) := by
  obtain ⟨last, hlast, houtcome⟩ := h.last
  unfold TurnExecutor.buildPending
  refine gives_then fun policy => gives_bind (gives_lift fun scope hscope => gives_bind (gives_expected fun step hstep => ?_))
  obtain rfl := Option.some.inj (hlast.symm.trans hstep)
  refine gives_bind (gives_lift fun calls hcalls => gives_bind (gives_reject fun hfits => ?_))
  have hbatch := mapError_eq_ok.1 hcalls
  obtain ⟨rfl, hunique⟩ := toolCallBatch_eq_ok hbatch
  split
  · exact gives_throw
  · refine gives_bind ((gives_prepareEntries _).mono fun entries hentries => gives_pure ?_)
    obtain ⟨hmap, hpass⟩ := hentries
    have hadmitted := toolScope_eq_ok hscope
    refine ⟨⟨h.told.timed, hadmitted.2.1, rfl, rfl, rfl⟩, fun other hother => ?_, fun hproper => ?_⟩
    · obtain rfl := Option.some.inj (hlast.symm.trans hother)
      exact hmap
    refine h.built hdigest hadmitted hlast houtcome hmap (fun hempty => ?_) ?_ ?_ fun item hitem =>
      hpass item hitem (hproper item hitem)
    · rw [hempty] at hmap
      exact toolCallBatch_ne_nil hbatch hmap.symm
    · rw [← hmap, List.map_map] at hunique
      exact hunique
    · rw [hmap]
      exact Bool.not_eq_false _ ▸ hfits

end Batches

end Turn
end Kolyan
