/-
# What a Turn asks

A Turn runs on ports: its control and the clocks, its boundary control, its
recorder, its model and its tools.  An operation is one call of a port, and a
Turn is a program of operations (`Kolyan.Lib.Threads`), so that whoever answers
them may be anyone: a boundary control that refuses, a recorder that fails, a
tool that never answers.  A port that is not configured is one that answers
without an error.  An execution is called once (`execute`) and then polled until
it has its outcome (`progress`), so that other calls of the stage run in between.
`planned` is no call: it shows the plan of one iteration to whoever watches the
Turn.
-/

import Kolyan.Turn.Checkpoint
import Kolyan.Lib.Threads

namespace Kolyan
namespace Turn

open Checks Policy Threads

/-- What a Turn sees of its control and of the clocks at one moment. -/
structure Sight where
  cancelled : Bool
  now : ℕ
  nowMs : ℕ

/-- How a future ended that a Turn awaited under its cancellation and a limit. -/
inductive Raced (α : Type) where
  | cancelled
  | timedOut
  | answered (a : α)

/-- What a model Step answers: its response, and the outcome that its stop
reason stands for. -/
structure StepReply where
  response : ModelResponse
  outcome : StepOutcome

/-- The operations of a Turn. -/
inductive TurnOp where
  | look
  | cutoff (unixMs : ℕ)
  | boundary (boundary : TurnBoundary)
  | record (event : TurnEvent)
  | recordRequest (request : ModelRequest)
  | recordCheckpoint (checkpoint : TurnCheckpoint)
  | step (stepId : String) (request : ModelRequest)
  | prepare (call : ToolCall)
  | execute (invocation : ToolInvocation)
  | progress (callId : String)
  | approval (toolName : String)
  | poll
  | planned (plan : BatchExecutionPlan) (checkpoint : TurnCheckpoint)

/-- What they answer. -/
@[reducible] def TurnOp.Answer : TurnOp → Type
  | look => Sight
  | cutoff _ => Except TurnDeadlineError ℕ
  | boundary _ => Raced (Except TurnError Unit)
  | record _ => Except TurnError Unit
  | recordRequest _ => Except TurnError Unit
  | recordCheckpoint _ => Except TurnError Unit
  | step _ _ => Raced (Except StepError StepReply)
  | prepare _ => Raced (Except ToolError PreparedCall)
  | execute _ => Unit
  | progress _ => Option (Raced (Except ToolError ToolOutcome))
  | approval _ => Raced Unit
  | poll => ℕ
  | planned _ _ => Unit

/-- Programs of a Turn that fail with `ε`. -/
abbrev PortProg (ε : Type) := Fallible TurnOp TurnOp.Answer ε

/-- Programs of a Turn. -/
abbrev TurnProg := PortProg TurnError

section Calls

variable {ε α : Type}

/-- One operation. -/
def ask (o : TurnOp) : PortProg ε o.Answer := Fallible.ofProg (.ask o fun a => .done (.ok a))

/-- A panic: the Turn goes no further. -/
def panicked : PortProg ε α := Fallible.ofProg .halt

/-- `Option::expect`. -/
def expected : Option α → PortProg ε α
  | some a => pure a
  | none => panicked

/-- The end of a future.  One without a limit does not time out. -/
def raced (limited : Bool) (cancelled timedOut : ε) : Raced α → PortProg ε α
  | .cancelled => throw cancelled
  | .timedOut => if limited then throw timedOut else panicked
  | .answered a => pure a

/-- The end of an execution that is polled until it has one. -/
def polledOutcome (callId : String) : ℕ → PortProg ε (Raced (Except ToolError ToolOutcome))
  | 0 => panicked
  | polls + 1 => do
      match ← ask (.progress callId) with
      | some outcome => return outcome
      | none => polledOutcome callId polls

/-- `EventEmitter::emit`. -/
def emit (event : TurnEvent) : TurnProg Unit := do
  let recorded ← ask (.record event)
  Fallible.lift recorded

end Calls

end Turn
end Kolyan
