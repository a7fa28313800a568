/-
# The execution coordinator of one process

`ExecutionCoordinator` (`kolyan-server/src/coordinator.rs`): the public state of
an execution is folded from its ledger facts, and a call that is to drive an
execution reads that state, appends its `ExecutionStarted` fact once, and then
inserts the execution into the process's active set.  Each of these is one or
more atomic operations on the shared ledger and the shared set, so a call is a
program of `Kolyan.Ledger.Port` whose host is the active set.
-/

import Kolyan.Ledger.Port
import Kolyan.Tasks.Encoding

namespace Kolyan
namespace Execution

open Checks Threads Ledger

/-- `ExecutionState`. -/
inductive ExecutionState where
  | new | running | suspended | completed | cancelled | failed
  deriving DecidableEq

/-- `AdmissionKind`. -/
inductive AdmissionKind where
  | start | resume | recover
  deriving DecidableEq

/-- `ExecutionAdmission`. -/
structure ExecutionAdmission where
  execution : ExecutionRef
  kind : AdmissionKind
  deriving DecidableEq

/-- `CoordinatorError`. -/
inductive CoordinatorError where
  | ledger (error : LedgerError)
  | alreadyActive (executionId : String)
  | notSuspended (executionId : String)
  | notRecoverable (executionId : String) (state : ExecutionState)
  | terminal (executionId : String) (state : ExecutionState)
  deriving DecidableEq

/-- The operations on the active set, each under its lock. -/
inductive ActiveOp where
  | isActive (executionId : String)
  | insert (executionId : String)
  | remove (executionId : String)

/-- What they answer: `contains`, `insert`, and nothing. -/
def ActiveOp.Answer : ActiveOp → Type
  | isActive _ => Bool
  | insert _ => Bool
  | remove _ => Unit

/-- One operation on the active set. -/
def activeStep (_thread : ℕ) (active : List String) : (o : ActiveOp) → o.Answer × List String
  | .isActive id => (active.contains id, active)
  | .insert id => if active.contains id then (false, active) else (true, id :: active)
  | .remove id => ((), active.filter (· ≠ id))

/-- Programs of the coordinator. -/
abbrev CoordinatorProg := Fallible (Op ActiveOp) (Op.Answer ActiveOp.Answer) CoordinatorError

/-- A ledger call; its error converts. -/
def ledgerCall {α : Type} (p : LedgerProg ActiveOp.Answer α) : CoordinatorProg α :=
  Fallible.mapError .ledger p

/-- `ExecutionCoordinator::is_active`. -/
def isActive (executionId : String) : CoordinatorProg Bool :=
  Fallible.ofProg (.ask (.host (.isActive executionId)) fun b => .done (.ok b))

/-- `ExecutionCoordinator::release`. -/
def release (executionId : String) : CoordinatorProg Unit :=
  Fallible.ofProg (.ask (.host (.remove executionId)) fun _ => .done (.ok ()))

/-- `is_terminal`. -/
def isTerminal : ExecutionState → Bool
  | .completed | .cancelled | .failed => true
  | _ => false

/-- The state after one more fact. -/
def nextState (state : ExecutionState) : LedgerEventKind → ExecutionState
  | .executionStarted => .running
  | .turnCheckpointPrepared | .turnCheckpointMerged => .running
  | .executionSuspended => .suspended
  | .executionCancelled | .turnCancelled => .cancelled
  | .turnCompleted => .completed
  | .turnFailed | .turnTimedOut | .effectUncertain => .failed
  | _ => state

/-- The loop of `state`: facts after a terminal one do not count. -/
def foldState (state : ExecutionState) : List LedgerEvent → ExecutionState
  | [] => state
  | event :: events => if isTerminal state then state else foldState (nextState state event.kind) events

/-- The ledger query of `state`. -/
def readExecution (fuel : ℕ) (executionId : String) : CoordinatorProg (List LedgerEvent) :=
  ledgerCall (executionEventsAfter fuel executionId 0)

/-- What `state` makes of the facts: a stopped execution that this process
drives is running. -/
def project (executionId : String) (events : List LedgerEvent) : CoordinatorProg ExecutionState :=
  match foldState .new events with
  | .suspended => do return if ← isActive executionId then .running else .suspended
  | state => return state

/-- `ExecutionCoordinator::state`. -/
def state (fuel : ℕ) (executionId : String) : CoordinatorProg ExecutionState := do
  project executionId (← readExecution fuel executionId)

/-- `ExecutionCoordinator::latest_cursor`. -/
def latestCursor (fuel : ℕ) (executionId : String) : CoordinatorProg ℕ := do
  return ((← readExecution fuel executionId).getLast?.map (·.cursor)).getD 0

/-- `ExecutionCoordinator::admit`. -/
def admitExecution (execution : ExecutionRef) (kind : AdmissionKind) :
    CoordinatorProg ExecutionAdmission :=
  Fallible.ofProg (.ask (.host (.insert execution.executionId)) fun inserted : Bool => .done
    (if inserted then .ok { execution, kind } else .error (.alreadyActive execution.executionId)))

/-- The event of `append_once`. -/
def onceEvent (execution : ExecutionRef) (suffix : String) (kind : LedgerEventKind)
    (payload : Value) : LedgerEvent where
  eventId := execution.executionId ++ "/" ++ suffix
  turnId := execution.turnId
  executionId := execution.executionId
  cursor := 0
  kind := kind
  idempotencyKey := execution.executionId ++ "/" ++ suffix
  payload := payload

/-- An existing fact that `append_once` takes for its own before appending. -/
def sameFact (event existing : LedgerEvent) : Bool :=
  existing.turnId = event.turnId && existing.executionId = event.executionId &&
    existing.kind = event.kind && existing.payload = event.payload

/-- An existing fact that `append_once` takes for its own after a conflict. -/
def identicalFact (event existing : LedgerEvent) : Bool :=
  existing.eventId = event.eventId && sameFact event existing &&
    existing.idempotencyKey = event.idempotencyKey

/-- The append of `append_once`: a conflict with an identical fact is success. -/
def appendOrReconcile (event : LedgerEvent) : CoordinatorProg Unit := do
  match ← Fallible.attempt (append event) with
  | .ok _ => return ()
  | .error (.conflict key) =>
      let existing ← ledgerCall (eventById event.eventId)
      if existing.any (identicalFact event) then return () else throw (.ledger (.conflict key))
  | .error error => throw (.ledger error)

/-- `ExecutionCoordinator::append_once`. -/
def appendOnce (execution : ExecutionRef) (suffix : String) (kind : LedgerEventKind)
    (payload : Value) : CoordinatorProg Unit := do
  let event := onceEvent execution suffix kind payload
  match ← ledgerCall (eventById event.eventId) with
  | some existing =>
      if sameFact event existing then return () else throw (.ledger (.conflict event.eventId))
  | none => appendOrReconcile event

/-- `start` once it knows the state. -/
def startFrom (execution : ExecutionRef) : ExecutionState → CoordinatorProg ExecutionAdmission
  | .new => do
      appendOnce execution "execution-started" .executionStarted execution.toValue
      admitExecution execution .start
  | .running => do
      if ← isActive execution.executionId then throw (.alreadyActive execution.executionId)
      else throw (.notRecoverable execution.executionId .running)
  | state =>
      if isTerminal state then throw (.terminal execution.executionId state)
      else throw (.notRecoverable execution.executionId state)

/-- `resume` once it knows the state. -/
def resumeFrom (fuel : ℕ) (execution : ExecutionRef) :
    ExecutionState → CoordinatorProg ExecutionAdmission
  | .suspended => do
      let cursor ← latestCursor fuel execution.executionId
      appendOnce execution ("execution-resumed/" ++ toString cursor) .executionStarted .null
      admitExecution execution .resume
  | state =>
      if isTerminal state then throw (.terminal execution.executionId state)
      else throw (.notSuspended execution.executionId)

/-- `recover` once it knows the state. -/
def recoverFrom (fuel : ℕ) (execution : ExecutionRef) :
    ExecutionState → CoordinatorProg ExecutionAdmission
  | .running | .suspended => do
      let cursor ← latestCursor fuel execution.executionId
      appendOnce execution ("execution-recovered/" ++ toString cursor) .executionStarted .null
      admitExecution execution .recover
  | state => throw (.notRecoverable execution.executionId state)

/-- `cancel` once it knows the state. -/
def cancelFrom (execution : ExecutionRef) (state : ExecutionState) : CoordinatorProg Unit :=
  if isTerminal state then return ()
  else do
    appendOnce execution "execution-cancelled" .executionCancelled .null
    release execution.executionId

section Calls

variable (fuel : ℕ)

/-- `ExecutionCoordinator::start`. -/
def start (execution : ExecutionRef) : CoordinatorProg ExecutionAdmission := do
  startFrom execution (← state fuel execution.executionId)

/-- `ExecutionCoordinator::resume`. -/
def resume (execution : ExecutionRef) : CoordinatorProg ExecutionAdmission := do
  resumeFrom fuel execution (← state fuel execution.executionId)

/-- `ExecutionCoordinator::recover`. -/
def recover (execution : ExecutionRef) : CoordinatorProg ExecutionAdmission := do
  recoverFrom fuel execution (← state fuel execution.executionId)

/-- `ExecutionCoordinator::cancel`. -/
def cancel (execution : ExecutionRef) : CoordinatorProg Unit := do
  cancelFrom execution (← state fuel execution.executionId)

end Calls

end Execution
end Kolyan
