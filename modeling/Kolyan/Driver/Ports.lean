/-
# What a durable driver asks

`DurableTurnDriver` (`kolyan-runtime/src/driver.rs`) is a program over the ledger
and over its host: the coordinator's active set, the ledger's claims, the ports
of the Turn that it passes on, the model, the tools behind `DurableTools`, the
verifier of external waits, the effect hooks and the store of the Sessions.  The
active set and the claims are state of the host; every other answer is the
environment's, so whatever a model, a tool or a hook answers is some environment.  `cut` is the moment at
which the Turn's cancellation or a time limit wins over a future that is awaited.
-/

import Kolyan.Driver.Evidence
import Kolyan.Execution.Coordinator
import Kolyan.Lib.Serving

namespace Kolyan
namespace Driver

open Checks Threads Ledger Policy Turn

section Failures

/-- `LedgerError::to_string`. -/
def ledgerText : LedgerError → String
  | .invalidQuery message => "invalid ledger query: " ++ message
  | .conflict key => "ledger conflict for idempotency key: " ++ key
  | .cancelled executionId => "execution was cancelled: " ++ executionId
  | .storage message => "ledger storage failed: " ++ message

/-- `RuntimeError`. -/
inductive RuntimeError where
  | deadline (error : TurnDeadlineError)
  | turn (error : TurnError)
  | ledger (error : LedgerError)
  | driver (message : String)

/-- `RuntimeError::to_string`. -/
def RuntimeError.toString : RuntimeError → String
  | deadline error => "deadline failed: " ++ error.toString
  | turn error => "turn execution failed: " ++ error.toString
  | ledger error => "ledger failed: " ++ ledgerText error
  | driver message => "runtime driver failed: " ++ message

/-- `EffectHookError`. -/
inductive EffectHookError where
  | host (message : String)
  | incomplete (message : String)
  | cancelled
  | timedOut

/-- `EffectHookError::to_string`. -/
def EffectHookError.toString : EffectHookError → String
  | host message => "effect hook host failure: " ++ message
  | incomplete message => "effect hook observation incomplete: " ++ message
  | cancelled => "effect hook cancelled"
  | timedOut => "effect hook execution window exhausted"

/-- `EffectHookDecision`. -/
inductive EffectHookDecision where
  | continue
  | denied (reason : String)

end Failures

section Sessions

/-- `SessionTurnStatus`. -/
inductive SessionTurnStatus where
  | running | suspended | completed | cancelled | failed
  deriving DecidableEq

/-- `SessionTurn`. -/
structure SessionTurn where
  turnId : String
  executionId : String
  status : SessionTurnStatus
  deriving DecidableEq

/-- The Turns of a `SessionRecord`, and the immutable input messages of each. -/
structure SessionRecord where
  turns : List SessionTurn
  inputs : List (String × List Message)

/-- `StorageError`; a failure of the store itself comes with its text. -/
inductive StorageError where
  | notFound (id : String)
  | conflict (message : String)
  | failed (message : String)

end Sessions

/-- `StepEvent`; the ones that a recorder leaves out are one. -/
inductive StepEvent where
  | textDelta (stepId text : String)
  | reasoningDelta (stepId text : String)
  | toolCallStarted (stepId id name : String)
  | toolCallArgumentsDelta (stepId id delta : String)
  | toolCallCompleted (stepId : String) (call : ToolCall)
  | usage (stepId : String) (usage : Value)
  | unrecorded

/-- What the host of a driver is asked. -/
inductive HostOp where
  | active (o : Execution.ActiveOp)
  | claim (idempotencyKey : String)
  | turn (o : TurnOp)
  | cut
  | model (stepId : String) (request : ModelRequest)
  | invoke (invocation : ToolInvocation)
  | verifyWait (issued : IssuedToolAuthority) (wait : ExternalWait)
  | verifyResult (issued : IssuedToolAuthority) (wait : ExternalWait) (result : ToolResult)
  | recoverWait (issued : IssuedToolAuthority)
  | beforeEffect (issued : IssuedToolAuthority)
  | afterReceipt (issued : IssuedToolAuthority) (receipt : LedgerEvent)
  | verifyObservation (issued : IssuedToolAuthority) (receipt : LedgerEvent)
  | loadSession (sessionId : String)
  | updateTurn (sessionId turnId : String) (status : SessionTurnStatus) (messages context : List Message)

/-- What it answers.  A model streams events before its Step ends. -/
@[reducible] def HostOp.Answer : HostOp → Type
  | active o => o.Answer
  | claim _ => Except LedgerError Bool
  | turn o => o.Answer
  | cut => Raced Unit
  | model _ _ => StepEvent ⊕ Raced (Except StepError StepReply)
  | invoke _ => Except ToolError ToolOutcome
  | verifyWait _ _ => Except ToolError Unit
  | verifyResult _ _ _ => Except ToolError Unit
  | recoverWait _ => Except ToolError (Option ExternalWait)
  | beforeEffect _ => Except EffectHookError EffectHookDecision
  | afterReceipt _ _ => Except EffectHookError Unit
  | verifyObservation _ _ => Except EffectHookError Unit
  | loadSession _ => Except StorageError SessionRecord
  | updateTurn _ _ _ _ _ => Except StorageError Unit

/-- The state of a host: the active set and the keys that are claimed. -/
structure Host where
  active : List String
  claims : List String

/-- Everything that an environment answers at one moment. -/
abbrev Env := (e : HostOp) → e.Answer

/-- One operation of the host.  A claim can fail; one that does not is given
once. -/
def hostStep (env : Env) (thread : ℕ) (host : Host) : (e : HostOp) → e.Answer × Host
  | .active o =>
      let (answer, active) := Execution.activeStep thread host.active o
      (answer, { host with active })
  | .claim key =>
      match env (.claim key) with
      | .error error => (.error error, host)
      | .ok _ =>
          if host.claims.contains key then (.ok false, host)
          else (.ok true, { host with claims := key :: host.claims })
  | .turn o => (env (.turn o), host)
  | .cut => (env .cut, host)
  | .model stepId request => (env (.model stepId request), host)
  | .invoke invocation => (env (.invoke invocation), host)
  | .verifyWait issued wait => (env (.verifyWait issued wait), host)
  | .verifyResult issued wait result => (env (.verifyResult issued wait result), host)
  | .recoverWait issued => (env (.recoverWait issued), host)
  | .beforeEffect issued => (env (.beforeEffect issued), host)
  | .afterReceipt issued receipt => (env (.afterReceipt issued receipt), host)
  | .verifyObservation issued receipt => (env (.verifyObservation issued receipt), host)
  | .loadSession sessionId => (env (.loadSession sessionId), host)
  | .updateTurn sessionId turnId status messages context =>
      (env (.updateTurn sessionId turnId status messages context), host)

/-- Programs on a ledger and such a host. -/
abbrev RawProg (α : Type) := Prog (Op HostOp) (Op.Answer HostOp.Answer) α

/-- Programs that may fail with `ε`. -/
abbrev HostProg (ε : Type) := Fallible (Op HostOp) (Op.Answer HostOp.Answer) ε

/-- Programs of the driver. -/
abbrev DriverProg := HostProg RuntimeError

section Calls

variable {ε α : Type}

/-- One operation of the host. -/
def host (e : HostOp) : HostProg ε e.Answer := Fallible.ofProg (.ask (.host e) fun a => .done (.ok a))

/-- A ledger call; its error converts. -/
def ledgerCall (p : LedgerProg HostOp.Answer α) : DriverProg α := Fallible.mapError .ledger p

/-- `invalid`. -/
def invalid (text : ε → String) (x : Except ε α) : Except RuntimeError α :=
  mapError (fun error => .driver (text error)) x

/-- A refusal of the driver. -/
def refuse (c : Prop) [Decidable c] (message : String) : DriverProg Unit :=
  Fallible.lift (reject c (.driver message))

/-- `ok_or_else` of the driver. -/
def orRefuse (o : Option α) (message : String) : DriverProg α :=
  Fallible.lift (expect o (.driver message))

/-- A port of a Turn that the driver passes on. -/
def passedOn (o : TurnOp) (_ : Unit) : RawProg (o.Answer × Unit) :=
  .ask (.host (.turn o)) fun a => .done (a, ())

/-- A Turn program whose ports are all passed on. -/
def passOn (p : TurnProg α) : HostProg TurnError α :=
  Fallible.ofProg ((Prog.serve passedOn p.run ()).bind fun r => .done r.1)

/-- A failed Turn call, as the driver reports it. -/
def RuntimeError.ofTurn : TurnError → RuntimeError
  | .deadline error => deadline error
  | error => turn error

/-- The facts of an execution. -/
def executionEvents (fuel : ℕ) (executionId : String) : DriverProg (List LedgerEvent) :=
  ledgerCall (executionEventsAfter fuel executionId 0)

/-- An event under an id of its own. -/
def identified (key : ExecutionRef) (id : String) (kind : LedgerEventKind) (payload : Value) :
    LedgerEvent where
  eventId := id
  turnId := key.turnId
  executionId := key.executionId
  cursor := 0
  kind := kind
  idempotencyKey := id
  payload := payload

/-- `append_once` of the driver: a fact that is there already has to be the same. -/
def appendOnce (key : ExecutionRef) (suffix : String) (kind : LedgerEventKind) (payload : Value) :
    DriverProg LedgerEvent := do
  let event := identified key (key.executionId ++ "/" ++ suffix) kind payload
  match ← ledgerCall (eventById event.eventId) with
  | some existing =>
      if Execution.sameFact event existing then return existing
      else throw (.driver ("conflicting event identity: " ++ event.eventId))
  | none => ledgerCall (append event)

/-- `DurableTurnDriver::cancel`. -/
def cancel (key : ExecutionRef) : DriverProg Unit := do
  let _ ← appendOnce key "execution-cancelled" .executionCancelled .null

/-- The last cursor of an execution. -/
def publicationCursor (fuel : ℕ) (executionId : String) : DriverProg ℕ := do
  let events ← executionEvents fuel executionId
  return (events.getLast?.map (·.cursor)).getD 0

/-- An operation of the coordinator, whose host is a part of the driver's. -/
def coordinatorOp : (o : Op Execution.ActiveOp) → Unit →
    RawProg (Op.Answer Execution.ActiveOp.Answer o × Unit)
  | .ledger (.query q), _ => .ask (.ledger (.query q)) fun a => .done (a, ())
  | .ledger (.append event), _ => .ask (.ledger (.append event)) fun a => .done (a, ())
  | .ledger (.appendUnlessCancelled event), _ =>
      .ask (.ledger (.appendUnlessCancelled event)) fun a => .done (a, ())
  | .host e, _ => .ask (.host (.active e)) fun a => .done (a, ())

/-- A call of the coordinator. -/
def coordinatorCall (p : Execution.CoordinatorProg α) : HostProg Execution.CoordinatorError α :=
  Fallible.ofProg ((Prog.serve coordinatorOp p.run ()).bind fun r => .done r.1)

end Calls

end Driver
end Kolyan
