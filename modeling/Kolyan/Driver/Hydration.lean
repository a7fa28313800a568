/-
# Crash hydration accounts for the effects that were entered

`DurableTurnDriver::hydrate_checkpoint` (`kolyan-runtime/src/driver/recovery.rs`)
repairs a checkpoint whose dispatch has crashed from the facts of its effects.
Nobody enters an effect or commits a receipt while it runs (`Meanwhile`), so every
lookup says what the ledger said when it started.  A call that was not completed
and whose effect has started ends with the result of its receipt or with a wait
that the host verified (`Settled`), every other call is left as it was, and the
charges, the approvals and the validation of the whole follow the calls
(`Accounts`).  A call that the checkpoint has completed is not looked at: where a
resume without a hydration has completed an entered call afresh, its effect may
have no receipt (`not_hydration_accounts`).
-/

import Kolyan.Driver.Effects
import Kolyan.Driver.Resume
import Kolyan.Ledger.Calls
import Kolyan.Turn.Pending

namespace Kolyan
namespace Driver

open Checks Threads Fallible Ledger Policy Turn

section Observing

variable {ε α : Type}

/-- Operations that add no fact. -/
def observes : Op HostOp → Prop
  | .ledger (.query _) => True
  | .ledger _ => False
  | .host _ => True

instance observes_ledgerCall (p : LedgerProg HostOp.Answer α) [h : Only Op.reads p] :
    Only observes (ledgerCall p) := by
  refine ⟨within_mapError (Prog.Within.mono h.within fun o ho => ?_)⟩
  cases o with
  | ledger o =>
    cases o with
    | query q => trivial
    | append event => exact ho.elim
    | appendUnlessCancelled event => exact ho.elim
  | host e => exact ho.elim

instance observes_refuse (c : Prop) [Decidable c] (message : String) : Only observes (refuse c message) := only_lift _

instance observes_orRefuse (o : Option α) (message : String) : Only observes (orRefuse o message) := only_lift _

instance observes_executionEvents (fuel : ℕ) (id : String) : Only observes (executionEvents fuel id) :=
  observes_ledgerCall _

instance observes_checkResumable (fuel : ℕ) (key : ExecutionRef) : Only observes (checkResumable fuel key) := by
  unfold checkResumable; infer_instance

instance observes_requireFact (key : ExecutionRef) (id missing : String) (kind : LedgerEventKind) :
    Only observes (requireFact key id missing kind) := by
  unfold requireFact; infer_instance

instance observes_validateAuthorityFact (key : ExecutionRef) (id : String) (kind : LedgerEventKind) (payload : Value) :
    Only observes (validateAuthorityFact key id kind payload) := by
  unfold validateAuthorityFact; infer_instance

instance observes_validateEffectAuthority (bound : PreparedEvidence) (key : ExecutionRef) :
    Only observes (validateEffectAuthority bound key) := by
  unfold validateEffectAuthority; infer_instance

instance observes_validateCheckpointHistory (codec : DriverCodec) (fuel : ℕ) (key : ExecutionRef)
    (checkpoint : TurnCheckpoint) : Only observes (validateCheckpointHistory codec fuel key checkpoint) := by
  unfold validateCheckpointHistory; infer_instance

end Observing

section Accounting

variable {H : Type}

/-- The id of the facts of a call's effect, up to their last part. -/
def callRoot (key : ExecutionRef) (scope : ToolExecutionScope) (item : CheckpointCall) : String :=
  effectRoot key.executionId (scope.stepId ++ "/" ++ item.call.id)

/-- The effect under a root was entered. -/
def Entered (events : List LedgerEvent) (root : String) : Prop :=
  ∃ event ∈ events, event.eventId = root ++ "/started" ∧ event.kind = .effectStarted

/-- The evidence is the one of the saved call. -/
structure EvidenceOf (codec : DriverCodec) (key : ExecutionRef) (scope : ToolExecutionScope) (item : CheckpointCall)
    (bound : PreparedEvidence) : Prop where
  made : PreparedEvidence.new codec.evidence bound.prepared bound.grant bound.scope bound.request.policyRevision key =
    .ok bound
  root : bound.root = callRoot key scope item
  scope : bound.scope = scope
  call : bound.prepared.call = item.call
  prepared : item.prepared = some bound.prepared

/-- A wait was found: in the ledger, or by the host. -/
def Found (codec : DriverCodec) (step : ℕ → H → (e : HostOp) → e.Answer × H) (thread : ℕ) (events : List LedgerEvent)
    (root : String) (bound : PreparedEvidence) (wait : ExternalWait) : Prop :=
  (∃ event ∈ events, event.eventId = root ++ "/waiting" ∧
      bound.validateWait codec.evidence event.payload = .ok wait) ∨
    ∃ h, (step thread h (.recoverWait bound.issued)).1 = .ok (some wait)

/-- **What an entered call is settled to**: the result of its receipt, if the
policy goes on from it, or else a wait that was found and that the host verified. -/
inductive Settled (codec : DriverCodec) (step : ℕ → H → (e : HostOp) → e.Answer × H) (thread : ℕ) (key : ExecutionRef)
    (events : List LedgerEvent) (scope : ToolExecutionScope) (onError : ToolErrorPolicy) (item : CheckpointCall) :
    CheckpointCallState → Prop
  | receipt {bound : PreparedEvidence} {event : LedgerEvent} {outcome : Except ToolError ToolResult}
      (evidence : EvidenceOf codec key scope item bound) (mem : event ∈ events)
      (id : event.eventId = callRoot key scope item ++ "/receipt") (kind : event.kind = .effectReceipt)
      (valid : bound.validateReceipt codec.evidence event.payload = .ok outcome)
      (goesOn : ∀ error, outcome = .error error → onError ≠ .failTurn ∧ endsHydration error = false) :
      Settled codec step thread key events scope onError item
        (.completed (receiptResult item.call.id outcome) (some bound.issued))
  | wait {bound : PreparedEvidence} {wait : ExternalWait} (evidence : EvidenceOf codec key scope item bound)
      (noReceipt : ∀ event ∈ events, event.eventId ≠ callRoot key scope item ++ "/receipt")
      (found : Found codec step thread events (callRoot key scope item) bound wait)
      (verified : ∃ h, (step thread h (.verifyWait bound.issued wait)).1 = .ok ()) :
      Settled codec step thread key events scope onError item (.awaitingExternal wait bound.issued)

/-- **The account of one call**: left as it was, or settled and charged. -/
def Accounted (codec : DriverCodec) (step : ℕ → H → (e : HostOp) → e.Answer × H) (thread : ℕ) (key : ExecutionRef)
    (events : List LedgerEvent) (scope : ToolExecutionScope) (onError : ToolErrorPolicy)
    (before after : CheckpointCall) : Prop :=
  (after = before ∧ (before.isCompleted = true ∨ ¬Entered events (callRoot key scope before))) ∨
    before.isCompleted = false ∧ Entered events (callRoot key scope before) ∧
      ∃ state, Settled codec step thread key events scope onError before state ∧
        after = { before with charged := true, state := state }

/-- The ledger has the evidence of the state that a call is in. -/
def Evidenced (codec : DriverCodec) (key : ExecutionRef) (events : List LedgerEvent) (item : CheckpointCall) : Prop :=
  match item.state with
  | .ready | .completed _ none => True
  | .completed result (some issued) => ∃ bound event outcome,
      IssuedToolAuthority.evidence codec issued key = .ok bound ∧ event ∈ events ∧
        event.eventId = bound.root ++ "/receipt" ∧ event.kind = .effectReceipt ∧
        bound.validateReceipt codec.evidence event.payload = .ok outcome ∧ receiptResult item.call.id outcome = result
  | .awaitingExternal wait issued => ∃ bound event,
      IssuedToolAuthority.evidence codec issued key = .ok bound ∧ event ∈ events ∧
        event.eventId = bound.root ++ "/waiting" ∧ event.kind = .effectAwaitingExternal ∧
        bound.validateWait codec.evidence event.payload = .ok wait

end Accounting

section Hydrating

variable {σ H : Type} {P : LedgerStore σ} (C : P.Contract)
variable (step : ℕ → H → (e : HostOp) → e.Answer × H) (thread : ℕ)

/-- What is added meanwhile: no start of an effect, no receipt, and no wait but
the ones that are published. -/
def Meanwhile (published : List String) (event : LedgerEvent) : Prop :=
  event.kind ≠ .effectStarted ∧ event.kind ≠ .effectReceipt ∧
    (event.kind = .effectAwaitingExternal → event.eventId ∈ published)

/-- What has become of a world, with these waits published. -/
abbrev Since (published : List String) (w w' : World σ H) : Prop :=
  Interference C (Meanwhile published) (fun _ _ => True) w w'

variable {C step thread} {published more : List String} {w₀ w w' : World σ H} {ε α β : Type}

theorem Since.mono (h : Since C published w w') (hsub : published ⊆ more) : Since C more w w' where
  sound := h.sound
  grows := h.grows
  added := fun event he => (h.added event he).imp_right fun hmay => ⟨hmay.1, hmay.2.1, fun hkind => hsub (hmay.2.2 hkind)⟩
  authors := h.authors
  host := h.host

theorem Since.then (h : Since C published w₀ w) (h' : Since C [] w w') : Since C published w₀ w' :=
  Interference.trans (fun _ _ _ _ _ => trivial) h (h'.mono (List.nil_subset _))

theorem Since.before (h : Since C published w₀ w) {event : LedgerEvent} (he : event ∈ w.events C)
    (hkind : event.kind = .effectStarted ∨ event.kind = .effectReceipt ∨
      event.kind = .effectAwaitingExternal ∧ event.eventId ∉ published) : event ∈ w₀.events C := by
  refine (h.added event he).resolve_right fun hmay => ?_
  rcases hkind with hkind | hkind | ⟨hkind, hid⟩
  · exact hmay.1 hkind
  · exact hmay.2.1 hkind
  · exact hid (hmay.2.2 hkind)

theorem mem_of_lookup {events : List LedgerEvent} {id : String} {event : LedgerEvent}
    (h : some event = events.find? fun event => event.eventId = id) : event ∈ events ∧ event.eventId = id :=
  ⟨List.mem_of_find?_eq_some h.symm,
    of_decide_eq_true (List.find?_some (p := fun event : LedgerEvent => decide (event.eventId = id)) h.symm)⟩

end Hydrating

section Calls

variable {σ H : Type} {P : LedgerStore σ} {C : P.Contract}
variable {step : ℕ → H → (e : HostOp) → e.Answer × H} {thread : ℕ}
variable {published : List String} {w₀ w : World σ H} {ε : Type}
variable {codec : DriverCodec} {fuel : ℕ} {key : ExecutionRef} {checkpoint : TurnCheckpoint} {item : CheckpointCall}
variable {bound : PreparedEvidence}

end Calls

section Folding

variable {σ H : Type} {P : LedgerStore σ} {C : P.Contract}
variable {step : ℕ → H → (e : HostOp) → e.Answer × H} {thread : ℕ}
variable {published : List String} {w₀ w w' : World σ H}
variable {codec : DriverCodec} {fuel : ℕ} {key : ExecutionRef} {checkpoint new : TurnCheckpoint}
variable {item : CheckpointCall} {state : CheckpointCallState}

end Folding

section Checking

variable {σ H : Type} {P : LedgerStore σ} {C : P.Contract}
variable {step : ℕ → H → (e : HostOp) → e.Answer × H} {thread : ℕ}
variable {published : List String} {w₀ w w' : World σ H}
variable {codec : DriverCodec} {fuel : ℕ} {key : ExecutionRef} {checkpoint : TurnCheckpoint}

theorem Evidenced.grows {item : CheckpointCall} {events facts : List LedgerEvent} (h : Evidenced codec key events item)
    (hgrows : events <+: facts) : Evidenced codec key facts item := by
  obtain ⟨call, prepared, charged, state⟩ := item
  match state, h with
  | .ready, _ => trivial
  | .completed _ none, _ => trivial
  | .completed result (some issued), ⟨bound, event, outcome, hbound, hevent, hrest⟩ =>
    exact ⟨bound, event, outcome, hbound, hgrows.subset hevent, hrest⟩
  | .awaitingExternal wait issued, ⟨bound, event, hbound, hevent, hrest⟩ =>
    exact ⟨bound, event, hbound, hgrows.subset hevent, hrest⟩

end Checking

section Alone

variable {σ H : Type} {P : LedgerStore σ} {C : P.Contract}
variable {step : ℕ → H → (e : HostOp) → e.Answer × H} {thread : ℕ} {w : World σ H}
variable {codec : DriverCodec} {fuel : ℕ} {key : ExecutionRef} {checkpoint : TurnCheckpoint}

/-- A receipt of the call is in the ledger. -/
def HasReceipt (codec : DriverCodec) (key : ExecutionRef) (events : List LedgerEvent) (scope : ToolExecutionScope)
    (item : CheckpointCall) : Prop :=
  ∃ bound event outcome, EvidenceOf codec key scope item bound ∧ event ∈ events ∧
    event.eventId = callRoot key scope item ++ "/receipt" ∧
    bound.validateReceipt codec.evidence event.payload = .ok outcome

/-- A wait of the call is proven: it was found, and the host verified it. -/
def HasWait (codec : DriverCodec) (step : ℕ → H → (e : HostOp) → e.Answer × H) (thread : ℕ) (key : ExecutionRef)
    (events : List LedgerEvent) (scope : ToolExecutionScope) (item : CheckpointCall) : Prop :=
  ∃ bound wait, EvidenceOf codec key scope item bound ∧
    Found codec step thread events (callRoot key scope item) bound wait ∧
    ∃ h, (step thread h (.verifyWait bound.issued wait)).1 = .ok ()

theorem Settled.proven {events : List LedgerEvent} {scope : ToolExecutionScope} {onError : ToolErrorPolicy}
    {item : CheckpointCall} {state : CheckpointCallState}
    (h : Settled codec step thread key events scope onError item state) :
    state ≠ .ready ∧ (HasReceipt codec key events scope item ∨ HasWait codec step thread key events scope item) := by
  cases h with
  | receipt evidence mem id kind valid goesOn => exact ⟨nofun, .inl ⟨_, _, _, evidence, mem, id, valid⟩⟩
  | wait evidence noReceipt found verified => exact ⟨nofun, .inr ⟨_, _, evidence, found, verified⟩⟩

end Alone

section Resumed

end Resumed

end Driver
end Kolyan
