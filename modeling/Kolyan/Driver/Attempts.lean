/-
# Attempts at a Turn

`DurableTurnDriver::start_with_deadline` (`kolyan-runtime/src/driver.rs`).  The
driver runs a Turn of the core on ports of its own: the boundary control and the
recorder of the attempt, and the durable tools.  `serveTurn` answers each call of
the Turn by a program over the ledger and the host; an execution that runs on is
kept as what is left of its program and goes on one operation at a poll, so that
the other executions of the stage, and the Turn's cancellation or a time limit,
come in between any two of its operations.
-/

import Kolyan.Driver.Suspension
import Kolyan.Turn.Engine

namespace Kolyan
namespace Driver

open Checks Threads Ledger Policy Turn

/-- What is left of the execution of a call. -/
abbrev Running := RawProg (Except ToolError ToolOutcome)

/-- What the ports of an attempt keep between the calls of its Turn: the counter
of its recorder and the executions under way. -/
structure Ports where
  next : ℕ
  running : List (String × Running)

/-- The ports of an attempt that begins. -/
def Ports.fresh : Ports := { next := 0, running := [] }

/-- Forget the execution of a call. -/
def Ports.drop (ports : Ports) (callId : String) : Ports :=
  { ports with running := ports.running.filter (·.1 ≠ callId) }

/-- Keep what is left of the execution of a call. -/
def Ports.keep (ports : Ports) (callId : String) (p : Running) : Ports :=
  { ports with running := (callId, p) :: ports.running.filter (·.1 ≠ callId) }

section Serving

variable (codec : DriverCodec) (fuel : ℕ) (attempt : Attempt) (tools : DurableTools)

/-- A future under the Turn's cancellation and a time limit, which are looked at
before it goes on. -/
def awaited {α : Type} (p : RawProg α) : RawProg (Raced α) :=
  .ask (.host .cut) fun c : Raced Unit =>
    match c with
    | .cancelled => .done .cancelled
    | .timedOut => .done .timedOut
    | .answered _ => p.bind fun a => .done (.answered a)

/-- The events of a Step until it ends; one that cannot be recorded ends it. -/
def streamStep (stepId : String) (request : ModelRequest) :
    ℕ → ℕ → RawProg (Raced (Except StepError StepReply) × ℕ)
  | 0, _ => .halt
  | moves + 1, next =>
      .ask (.host (.model stepId request)) fun move : StepEvent ⊕ Raced (Except StepError StepReply) =>
        match move with
        | .inr ended => .done (ended, next)
        | .inl event => (attempt.recordStep next event).bind fun r =>
            match r.1 with
            | .ok _ => streamStep stepId request moves r.2
            | .error error => .done (.answered (.error
                (.failed ("step event recording failed: " ++ error.toString))), r.2)

/-- One operation of the execution of a call, or its end. -/
def Ports.poll (ports : Ports) (callId : String) :
    RawProg (Option (Raced (Except ToolError ToolOutcome)) × Ports) :=
  match ports.running.lookup callId with
  | some (.done outcome) => .done (some (.answered outcome), ports.drop callId)
  | some (.ask o next) => .ask o fun a => .done (none, ports.keep callId (next a))
  | _ => .halt

/-- The execution of a call under the Turn's cancellation and its time limit. -/
def Ports.progress (ports : Ports) (callId : String) :
    RawProg (Option (Raced (Except ToolError ToolOutcome)) × Ports) :=
  (awaited (ports.poll callId)).bind fun r =>
    match r with
    | .cancelled => .done (some .cancelled, ports.drop callId)
    | .timedOut => .done (some .timedOut, ports.drop callId)
    | .answered answer => .done answer

/-- The ports of an attempt. -/
def serveTurn : (o : TurnOp) → Ports → RawProg (o.Answer × Ports)
  | .boundary boundary, ports =>
      (awaited (attempt.admitBoundary boundary).run).bind fun r => .done (r, ports)
  | .record event, ports =>
      (attempt.record codec ports.next event).bind fun r => .done (r.1, { ports with next := r.2 })
  | .recordRequest request, ports =>
      (attempt.recordRequest codec ports.next request).bind fun r =>
        .done (r.1, { ports with next := r.2 })
  | .recordCheckpoint checkpoint, ports =>
      (attempt.recordCheckpoint codec fuel checkpoint).run.bind fun r => .done (r, ports)
  | .step stepId request, ports =>
      (streamStep attempt stepId request fuel ports.next).bind fun r =>
        .done (r.1, { ports with next := r.2 })
  | .execute invocation, ports => .done ((), ports.keep invocation.prepared.call.id
      (tools.executeInvocation codec.evidence invocation).run)
  | .progress callId, ports => ports.progress callId
  | .look, ports => .ask (.host (.turn .look)) fun a => .done (a, ports)
  | .cutoff unixMs, ports => .ask (.host (.turn (.cutoff unixMs))) fun a => .done (a, ports)
  | .prepare call, ports => .ask (.host (.turn (.prepare call))) fun a => .done (a, ports)
  | .approval toolName, ports => .ask (.host (.turn (.approval toolName))) fun a => .done (a, ports)
  | .poll, ports => .ask (.host (.turn .poll)) fun a => .done (a, ports)
  | .planned plan checkpoint, ports =>
      .ask (.host (.turn (.planned plan checkpoint))) fun a => .done (a, ports)

/-- A Turn on the ports of an attempt. -/
def attemptTurn (turn : TurnProg ResumableTurn) : HostProg TurnError ResumableTurn :=
  Fallible.ofProg ((Prog.serve (serveTurn codec fuel attempt tools) turn.run Ports.fresh).bind
    fun r => .done r.1)

/-- How an attempt ends. -/
def finish (turn : TurnProg ResumableTurn) : DriverProg DurableTurnResult := do
  match ← Fallible.attempt (attemptTurn codec fuel attempt tools turn) with
  | .ok (.completed result) => completed fuel attempt.key result
  | .ok (.suspended suspension) => suspended codec fuel attempt.key suspension
  | .error error => do
      persistError fuel attempt.key error
      throw (.turn error)

end Serving

section Starting

variable (codec : DriverCodec) (fuel : ℕ) (executor : TurnExecutor) (effectHooks : Bool)

/-- `u64::try_from(duration.as_millis())`. -/
def timeoutMs : Option ℕ → Except RuntimeError (Option ℕ)
  | none => .ok none
  | some timeout =>
      if timeout / 10 ^ 6 < 2 ^ 64 then .ok (some (timeout / 10 ^ 6))
      else .error (.driver "out of range integral type conversion attempted")

/-- The window of a Turn, as tight as its executor says. -/
def anchor (deadline : TurnDeadline) (request : TurnRequest) : DriverProg TurnDeadline := do
  Fallible.lift (checkDuration deadline request.config.deadline)
  Fallible.mapError RuntimeError.ofTurn (passOn (deadline.tightenAbsolute executor.absoluteDeadlineAtMs))

/-- `TurnExecutor::with_absolute_deadline_at_ms`, where there is a cutoff. -/
def withAbsoluteDeadline : Option ℕ → TurnExecutor
  | none => executor
  | some deadline =>
      { executor with
        absoluteDeadlineAtMs := some (executor.absoluteDeadlineAtMs.elim deadline (min · deadline)) }

/-- `TurnExecutor::with_execution_key`. -/
def withExecutionKey (key : ExecutionRef) : TurnExecutor := { executor with executionKey := some key }

/-- The claim of the first attempt. -/
def claimStart (key : ExecutionRef) : DriverProg Unit := do
  let claimed ← host (.claim (key.executionId ++ "/attempt/start"))
  let won ← Fallible.lift (mapError .ledger claimed)
  refuse (won = false) "execution attempt is already claimed; replay is forbidden"

/-- `DurableTurnDriver::start_with_deadline`. -/
def startWithDeadline (request : TurnRequest) (sessionId executionId : String) (deadline : TurnDeadline) :
    DriverProg DurableTurnResult := do
  let deadline ← anchor executor deadline request
  let key := { sessionId, turnId := request.turnId, executionId }
  let toolTimeoutMs ← Fallible.lift (timeoutMs executor.toolTimeout)
  let admission ← Fallible.lift (InputAdmission.new key request executor.toolDispatch toolTimeoutMs
    executor.agentSnapshotDigest deadline)
  let _ ← appendOnce key "execution-started" .executionStarted key.toValue
  admission.persist codec
  claimStart key
  let tools := { key, snapshotDigest := admission.agentSnapshotDigest, effectHooks }
  finish codec fuel { key, name := "start", resumeCursor := none } tools
    ((withExecutionKey (withAbsoluteDeadline executor admission.deadlineAtMs) key).startResumable
      codec.turn fuel request deadline)

end Starting

end Driver
end Kolyan
