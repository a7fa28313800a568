/-
# How a Turn ends

A Turn records that it is completed in one place, after its boundary control has
admitted a terminal boundary (`RunState.complete`).  `Only silent` says of a
program of the Turn that it never records a completion; every part of the loop
but that one is such a program.  `holds_run` says what is left: a Turn on any
ports asks to record its completion only after a terminal boundary was answered
without an error.
-/

import Kolyan.Turn.Engine
import Kolyan.Lib.Serving

namespace Kolyan
namespace Turn

open Checks Policy Threads Fallible

/-- An operation that does not record the completion of a Turn. -/
@[reducible] def isSilent : TurnOp → Bool
  | .record (.completed _ _) => false
  | _ => true

/-- Operations that do not record the completion of a Turn. -/
def silent (o : TurnOp) : Prop := isSilent o = true

section Ports

variable {ε α : Type}

instance only_panicked {ok : TurnOp → Prop} : Only ok (panicked : PortProg ε α) := ⟨trivial⟩

instance only_expected {ok : TurnOp → Prop} (o : Option α) : Only ok (expected o : PortProg ε α) := by
  cases o with
  | none => exact only_panicked
  | some a => exact only_pure a

instance only_raced {ok : TurnOp → Prop} (limited : Bool) (cancelled timedOut : ε) (r : Raced α) :
    Only ok (raced limited cancelled timedOut r) := by
  cases r with
  | cancelled => exact only_throw _
  | timedOut => exact only_ite
  | answered a => exact only_pure a

instance silent_ask {o : TurnOp} [h : Certain (isSilent o)] :
    Only (α := no_index o.Answer) silent (ask o : PortProg ε o.Answer) :=
  ⟨h.eq, fun _ => trivial⟩

instance silent_emit {event : TurnEvent} [h : Certain (isSilent (.record event))] : Only silent (emit event) :=
  only_bind (h := silent_ask (h := h))

instance silent_polledOutcome (callId : String) (polls : ℕ) :
    Only silent (polledOutcome callId polls : PortProg ε (Raced (Except ToolError ToolOutcome))) := by
  induction polls with
  | zero => exact only_panicked
  | succ polls ih =>
    unfold polledOutcome
    refine only_bind (g := fun a => ?_)
    split
    · exact only_pure _
    · exact ih

end Ports

section Planning

variable (codec : Codec) (state : RunState)

instance silent_tightenAbsolute (deadline : TurnDeadline) (ceiling : Option ℕ) :
    Only silent (deadline.tightenAbsolute ceiling) := by
  cases ceiling with
  | none => exact only_pure _
  | some ceiling => simp only [TurnDeadline.tightenAbsolute]; infer_instance

instance silent_check : Only silent state.check := by
  unfold RunState.check; infer_instance

instance silent_admitted (kind : TurnBoundaryKind) : Only silent (state.admitted kind) := by
  unfold RunState.admitted; infer_instance

instance silent_prepareReady (call : ToolCall) : Only silent (state.prepareReady codec call) := by
  unfold RunState.prepareReady; infer_instance

instance silent_prepareFailure (call : ToolCall) (error : ToolError) :
    Only silent (state.prepareFailure call error) := by
  unfold RunState.prepareFailure; infer_instance

instance silent_prepareEntry (call : ToolCall) : Only silent (state.prepareEntry codec call) := by
  unfold RunState.prepareEntry
  refine only_bind (g := fun r => ?_)
  cases r with
  | ok prepared => exact only_pure _
  | error error => exact only_bind

instance silent_prepareEntries (calls : List ToolCall) : Only silent (state.prepareEntries codec calls) := by
  induction calls with
  | nil => exact only_pure _
  | cons call calls ih => unfold RunState.prepareEntries; infer_instance

instance silent_initializePending (executor : TurnExecutor) :
    Only silent (executor.initializePending codec state) := by
  unfold TurnExecutor.initializePending
  refine only_bind (g := fun policy => only_bind (g := fun scope => only_bind (g := fun step =>
    only_bind (g := fun calls => only_bind (g := fun _ => ?_)))))
  split
  · exact only_throw _
  · infer_instance

instance silent_refreshCall (checkpoint : TurnCheckpoint) (call : ToolCall) :
    Only silent (state.refreshCall codec checkpoint call) := by
  unfold RunState.refreshCall
  refine only_bind (g := fun r => ?_)
  cases r with
  | ok current => exact only_bind
  | error error => exact only_bind

instance silent_refreshCalls (checkpoint : TurnCheckpoint) (calls : List ToolCall) :
    Only silent (state.refreshCalls codec checkpoint calls) := by
  induction calls generalizing checkpoint with
  | nil => exact only_pure _
  | cons call calls ih => unfold RunState.refreshCalls; infer_instance

instance silent_denyCall (checkpoint : TurnCheckpoint) (item : CheckpointCall) (reason : String) :
    Only silent (state.denyCall checkpoint item reason) := by
  unfold RunState.denyCall; infer_instance

instance silent_requireApproval (checkpoint : TurnCheckpoint) (item : CheckpointCall)
    (prepared : PreparedCall) (decision : PolicyDecision) :
    Only silent (state.requireApproval codec checkpoint item prepared decision) := by
  unfold RunState.requireApproval; infer_instance

instance silent_applyDecision (checkpoint : TurnCheckpoint) (planned : BatchCallDecision) :
    Only silent (state.applyDecision codec checkpoint planned) := by
  unfold RunState.applyDecision
  refine only_bind (g := fun item => only_bind (g := fun prepared => only_bind (g := fun _ => ?_)))
  split <;> infer_instance

instance silent_applyDecisions (checkpoint : TurnCheckpoint) (decisions : List BatchCallDecision) :
    Only silent (state.applyDecisions codec checkpoint decisions) := by
  induction decisions generalizing checkpoint with
  | nil => exact only_pure _
  | cons planned decisions ih => unfold RunState.applyDecisions; infer_instance

instance silent_refreshReady (executor : TurnExecutor) : Only silent (executor.refreshReady codec state) := by
  unfold TurnExecutor.refreshReady
  dsimp only
  refine only_bind (g := fun checkpoint => only_bind (g := fun refreshed => only_bind (g := fun _ => ?_)))
  infer_instance

end Planning

section Dispatching

variable (codec : Codec) (fuel : ℕ) (state : RunState)

instance silent_approvalEvidence (checkpoint : TurnCheckpoint) (id : String) :
    Only silent (checkpoint.approvalEvidence id) := by
  unfold TurnCheckpoint.approvalEvidence
  refine only_bind (g := fun saved => ?_)
  split <;> infer_instance

instance silent_issueAuthority (checkpoint : TurnCheckpoint) (item : CheckpointCall)
    (planned : BatchCallDecision) : Only silent (checkpoint.issueAuthority codec item planned) := by
  unfold TurnCheckpoint.issueAuthority; infer_instance

instance silent_invocation (checkpoint : TurnCheckpoint) (plan : BatchExecutionPlan) (id : String) :
    Only silent (checkpoint.invocation codec plan id) := by
  unfold TurnCheckpoint.invocation; infer_instance

instance silent_invocations (checkpoint : TurnCheckpoint) (plan : BatchExecutionPlan) (stage : List String) :
    Only silent (checkpoint.invocations codec plan stage) := by
  induction stage with
  | nil => exact only_pure _
  | cons id stage ih => unfold TurnCheckpoint.invocations; infer_instance

instance silent_dispatchCall (call : ToolCall) (issued : IssuedToolAuthority) :
    Only silent (state.dispatchCall fuel call issued) := by
  unfold RunState.dispatchCall
  refine only_bind (g := fun _ => only_bind (g := fun _ => only_bind (g := fun checkpoint => ?_)))
  dsimp only
  split <;> infer_instance

instance silent_uncertain (call : ToolCall) (message : String) :
    Only silent (state.uncertain call message) := by
  unfold RunState.uncertain
  refine only_bind (g := fun r => ?_)
  cases r with
  | ok u => exact only_throw _
  | error recording => exact only_throw _

instance silent_failedState (call : ToolCall) (issued : IssuedToolAuthority) (error : ToolError) :
    Only silent (state.failedState call issued error) := by
  unfold RunState.failedState; infer_instance

instance silent_observedState (observation : DispatchObservation) :
    Only silent (state.observedState observation) := by
  unfold RunState.observedState
  split
  · infer_instance
  · split <;> infer_instance
  · infer_instance
  · infer_instance

instance silent_applyObservation (checkpoint : TurnCheckpoint) (observation : DispatchObservation) :
    Only silent (state.applyObservation checkpoint observation) := by
  unfold RunState.applyObservation; infer_instance

instance silent_drain (checkpoint : TurnCheckpoint) (fatal : Option TurnError)
    (observations : List (Except TurnError DispatchObservation)) :
    Only silent (state.drain checkpoint fatal observations) := by
  induction observations generalizing checkpoint fatal with
  | nil => cases fatal <;> unfold RunState.drain <;> infer_instance
  | cons observation observations ih =>
    cases observation with
    | error error => exact ih _ _
    | ok observation =>
      refine only_bind (g := fun r => ?_)
      cases r with
      | ok checkpoint => exact ih _ _
      | error error => exact ih _ _

instance silent_dispatchSerial (checkpoint : TurnCheckpoint)
    (invocations : List (ToolCall × IssuedToolAuthority)) :
    Only silent (state.dispatchSerial fuel checkpoint invocations) := by
  induction invocations generalizing checkpoint with
  | nil => exact only_pure _
  | cons invocation invocations ih => unfold RunState.dispatchSerial; infer_instance

instance silent_dispatchParallel (checkpoint : TurnCheckpoint)
    (invocations : List (ToolCall × IssuedToolAuthority)) :
    Only silent (state.dispatchParallel fuel checkpoint invocations) := by
  have hcalls : ∀ p ∈ invocations.map fun invocation => (state.dispatchCall fuel invocation.1 invocation.2).run,
      p.Within silent := by
    intro p hp
    obtain ⟨invocation, -, rfl⟩ := List.mem_map.1 hp
    exact (silent_dispatchCall fuel state invocation.1 invocation.2).within
  have hpolled : polled.Within silent := ⟨rfl, fun _ => trivial⟩
  have hjoin : Only silent (Fallible.ofProg ((Prog.joinAll polled fuel
      (invocations.map fun invocation => (state.dispatchCall fuel invocation.1 invocation.2).run)).bind
        fun observations => .done (.ok observations)) : TurnProg _) :=
    ⟨Prog.within_bind (Prog.within_joinAll hpolled fuel hcalls) fun _ => trivial⟩
  unfold RunState.dispatchParallel; infer_instance

instance silent_dispatchCurrentStage (plan : BatchExecutionPlan) :
    Only silent (state.dispatchCurrentStage codec fuel plan) := by
  unfold RunState.dispatchCurrentStage
  refine only_bind (g := fun checkpoint => ?_)
  split
  · exact only_pure _
  · refine only_bind (g := fun invocations => ?_)
    split
    · exact only_pure _
    · split <;> infer_instance

end Dispatching

section Looping

variable (codec : Codec) (executor : TurnExecutor) (fuel : ℕ) (suspend : Bool) (state : RunState)

instance silent_awaitApprovals (approvals : List ApprovalRequest) :
    Only silent (state.awaitApprovals approvals) := by
  induction approvals with
  | nil => exact only_pure _
  | cons approval approvals ih => unfold RunState.awaitApprovals; infer_instance

instance silent_suspendPending : Only silent (state.suspendPending codec) := by
  unfold RunState.suspendPending; infer_instance

instance silent_completeBatch (checkpoint : TurnCheckpoint) : Only silent (state.completeBatch checkpoint) := by
  unfold RunState.completeBatch; infer_instance

instance silent_awaitApproval (checkpoint : TurnCheckpoint) (approval : ApprovalRequest) :
    Only silent (state.awaitApproval checkpoint approval) := by
  unfold RunState.awaitApproval; infer_instance

instance silent_runStage (plan : BatchExecutionPlan) :
    Only silent (TurnExecutor.runStage codec fuel state plan) := by
  unfold TurnExecutor.runStage; infer_instance

instance silent_runPending : Only silent (executor.runPending codec fuel suspend state) := by
  unfold TurnExecutor.runPending
  refine only_bind (g := fun refreshed => only_bind (g := fun checkpoint => only_bind (g := fun summary => ?_)))
  split <;> infer_instance

instance silent_pendingStep : Only silent (executor.pendingStep codec fuel suspend state) := by
  unfold TurnExecutor.pendingStep; infer_instance

instance silent_handlePending (iterations : ℕ) :
    Only silent (executor.handlePending codec fuel suspend iterations state) := by
  induction iterations generalizing state with
  | zero => exact only_panicked
  | succ iterations ih =>
    refine only_bind (g := fun step => ?_)
    cases step with
    | again state => exact ih state
    | finished state => exact only_pure _
    | waiting suspension => exact only_pure _

instance silent_settlePending : Only silent (executor.settlePending codec fuel suspend state) := by
  unfold TurnExecutor.settlePending
  split <;> infer_instance

instance silent_modelStep : Only silent state.modelStep := by
  unfold RunState.modelStep
  dsimp only
  refine only_bind (g := fun _ => only_bind (g := fun _ => only_bind (g := fun _ => ?_)))
  infer_instance

end Looping

section Completion

/-- A boundary that ends the Turn, admitted. -/
def admitsEnd : (o : TurnOp) → o.Answer → Bool
  | .boundary ⟨_, .terminal _⟩, .answered (.ok _) => true
  | _, _ => false

/-- The ports of a Turn, as far as its end goes: the state says whether a
terminal boundary was admitted, and only then is a completion recorded. -/
def ending : Setting TurnOp TurnOp.Answer Bool where
  act ended o a ended' := ended' = (ended || admitsEnd o a)
  rely ended ended' := ended' = ended
  allow ended o := isSilent o = false → ended = true

variable {α β : Type} {ended : Bool}

theorem holds_silent {ε : Type} (p : PortProg ε α) [h : Only silent p] :
    Prog.Holds ending p.run (fun _ _ => True) ended :=
  h.within.holds (fun _ _ _ _ => trivial)
    (fun ended o _ hsilent hloud => by rw [show isSilent o = true from hsilent] at hloud; exact nomatch hloud)
    (fun _ _ _ _ _ _ _ => trivial) trivial

theorem holds_then {ε : Type} {p : PortProg ε α} {f : α → PortProg ε β}
    (hp : Prog.Holds ending p.run (fun _ _ => True) ended)
    (hf : ∀ a ended, Prog.Holds ending (f a).run (fun _ _ => True) ended) :
    Prog.Holds ending (p >>= f).run (fun _ _ => True) ended := by
  refine Fallible.holds_bind (hp.mono fun r ended _ => ?_)
  cases r with
  | ok a => exact hf a ended
  | error e => trivial

theorem holds_terminal (state : RunState) (reason : TurnEndReason) :
    Prog.Holds ending (state.admitted (.terminal reason)).run (fun r ended => r = .ok () → ended = true)
      ended := by
  unfold RunState.admitted
  refine Fallible.holds_bind ((holds_silent state.check).mono fun r ended _ => ?_)
  cases r with
  | error e => exact fun h => nomatch h
  | ok u =>
    intro ended' hrely
    refine ⟨fun h => (nomatch h), ?_⟩
    rintro answer ended'' hact
    replace hact : ended'' = (ended' || admitsEnd _ answer) := hact
    match answer with
    | .cancelled => exact fun h => nomatch h
    | .timedOut =>
      show Prog.Holds ending (ExceptT.run ((if _ then _ else _) >>= _)) _ _
      split
      · exact fun h => nomatch h
      · trivial
    | .answered (.error e) => exact fun h => nomatch h
    | .answered (.ok u) =>
      intro _
      rw [hact]
      exact Bool.or_true _

theorem holds_complete (state : RunState) (outcome : TurnOutcome) (reason : TurnEndReason) :
    Prog.Holds ending (state.complete outcome reason).run (fun _ _ => True) ended := by
  unfold RunState.complete
  refine Fallible.holds_bind ((holds_terminal state reason).mono fun r ended hended => ?_)
  cases r with
  | error e => trivial
  | ok u =>
    intro ended' hrely
    replace hrely : ended' = ended := hrely
    refine ⟨fun _ => hrely.trans (hended rfl), ?_⟩
    rintro recorded ended'' -
    match recorded with
    | .error e => trivial
    | .ok u => trivial

variable (codec : Codec) (executor : TurnExecutor) (fuel : ℕ) (suspend : Bool)

theorem holds_driveModel (state : RunState) :
    Prog.Holds ending (executor.driveModel codec state).run (fun _ _ => True) ended := by
  unfold TurnExecutor.driveModel
  split
  · exact holds_then (holds_complete state _ _) fun turn ended => trivial
  · refine holds_then (holds_silent state.modelStep) fun r ended => ?_
    obtain ⟨state, step⟩ := r
    dsimp only
    split
    · exact holds_then (holds_complete state _ _) fun turn ended => trivial
    · exact holds_then (holds_silent _) fun state ended => trivial

theorem holds_driveStep (state : RunState) :
    Prog.Holds ending (executor.driveStep codec fuel suspend state).run (fun _ _ => True) ended := by
  unfold TurnExecutor.driveStep
  refine holds_then (holds_silent state.check) fun _ ended => ?_
  refine holds_then (holds_silent (executor.settlePending codec fuel suspend state)) fun r ended => ?_
  cases r with
  | inl state => exact holds_driveModel codec executor state
  | inr suspension => trivial

theorem holds_driveLoop (iterations : ℕ) (state : RunState) :
    Prog.Holds ending (executor.driveLoop codec fuel suspend iterations state).run (fun _ _ => True)
      ended := by
  induction iterations generalizing state ended with
  | zero => trivial
  | succ iterations ih =>
    unfold TurnExecutor.driveLoop
    refine holds_then (holds_driveStep codec executor fuel suspend state) fun step ended => ?_
    cases step with
    | again state => exact ih state
    | exit turn => trivial

theorem holds_drive (state : RunState) :
    Prog.Holds ending (executor.drive codec fuel suspend state).run (fun _ _ => True) ended := by
  unfold TurnExecutor.drive
  dsimp only
  split
  · exact holds_driveLoop codec executor fuel suspend _ _
  · exact holds_then (holds_silent _) fun _ ended => holds_driveLoop codec executor fuel suspend _ _

theorem isSilent_terminalEvent (turnId : String) (error : TurnError) :
    isSilent (.record (terminalEvent turnId error)) = true := by
  unfold terminalEvent
  split <;> rfl

theorem holds_run (state : RunState) :
    Prog.Holds ending (executor.run codec fuel suspend state).run (fun _ _ => True) ended := by
  unfold TurnExecutor.run
  dsimp only
  split
  · refine Fallible.holds_bind (Fallible.holds_attempt
      ((holds_drive codec executor fuel suspend state).mono fun r ended _ => ?_))
    cases r with
    | ok turn => trivial
    | error error =>
      have : Certain (isSilent (.record (terminalEvent state.turnId error))) :=
        ⟨isSilent_terminalEvent state.turnId error⟩
      exact holds_then (holds_silent (ask (.record (terminalEvent state.turnId error)))) fun _ ended => trivial
  · refine holds_then (holds_silent _) fun _ ended => ?_
    refine Fallible.holds_bind (Fallible.holds_attempt
      ((holds_drive codec executor fuel suspend state).mono fun r ended _ => ?_))
    cases r with
    | ok turn => trivial
    | error error =>
      have : Certain (isSilent (.record (terminalEvent state.turnId error))) :=
        ⟨isSilent_terminalEvent state.turnId error⟩
      exact holds_then (holds_silent (ask (.record (terminalEvent state.turnId error)))) fun _ ended => trivial

theorem holds_startResumable (request : TurnRequest) (deadline : TurnDeadline) :
    Prog.Holds ending (executor.startResumable codec fuel request deadline).run (fun _ _ => True) ended := by
  unfold TurnExecutor.startResumable
  refine holds_then (holds_silent _) fun _ ended => holds_then (holds_silent _) fun deadline ended => ?_
  exact holds_then (holds_silent _) fun state ended => holds_run codec executor fuel true state

theorem holds_resumeCheckpoint (checkpoint : TurnCheckpoint) (scope : ToolExecutionScope)
    (deadline : TurnDeadline) :
    Prog.Holds ending (executor.resumeCheckpoint codec fuel checkpoint scope deadline).run
      (fun _ _ => True) ended := by
  unfold TurnExecutor.resumeCheckpoint
  refine holds_then (holds_silent _) fun _ ended => holds_then (holds_silent _) fun _ ended => ?_
  exact holds_then (holds_silent _) fun state ended => holds_run codec executor fuel true state

end Completion

end Turn
end Kolyan
