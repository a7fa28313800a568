/-
# Observations of a process

`crates/kolyan-sandbox/src/observation.rs`: a launched process is observed through two
bounded channels, one for its output and one for its life, which share one counter.  An
event is numbered and sent under the lock of the counter, or counted as lost; the receiver
merges the channels again by number, through a head taken from each.  The channels are
those of the runtime, the parameter `C`.

A run is a history of operations on the shared parts.  `emit` and the polls of the receiver
hold the lock and are one operation each; `record_loss` holds none, so its two additions
are two operations, and a sender and the receiver give up their channels one by one.
-/

import Kolyan.Lib.Histories
import Kolyan.Lib.Mailboxes
import Kolyan.Agent.Invoke

namespace Kolyan
namespace Sandbox

open Mailboxes
open Streams (Poll)

/-- `SandboxOutputStream`. -/
inductive SandboxOutputStream where
  | stdout | stderr
  deriving DecidableEq

/-- `SandboxCancellationCause`. -/
inductive SandboxCancellationCause where
  | explicitControl | droppedFuture
  deriving DecidableEq

/-- `SandboxProcessEvent`. -/
inductive SandboxProcessEvent where
  | spawned
  | outputObserved (stream : SandboxOutputStream) (bytes : List UInt8)
  | cancellationObserved (cause : SandboxCancellationCause)
  | terminationAttempted (error : Option String)
  | reaped (exitCode signal : Option ℤ)
  | groupCleanup (error : Option String)
  | captureCompleted (stream : SandboxOutputStream) (retainedBytes : ℕ) (error : Option String)
  | cleanupFailed (error : String)
  deriving DecidableEq

/-- `SandboxProcessObservation`. -/
structure SandboxProcessObservation where
  launchId : String
  context : String
  pid : ℕ
  processGroup : ℤ
  event : SandboxProcessEvent
  errorsTruncated : Bool
  deriving DecidableEq

/-- `matches!(event, OutputObserved { .. })`. -/
def SandboxProcessObservation.isOutput (row : SandboxProcessObservation) : Bool :=
  match row.event with
  | .outputObserved .. => true
  | _ => false

/-- `Sequenced`. -/
structure Sequenced where
  sequence : ℕ
  observation : SandboxProcessObservation
  deriving DecidableEq

/-- The channel of a row. -/
abbrev Sequenced.isOutput (row : Sequenced) : Bool := row.observation.isOutput

/-- `LaunchObservation`, with the context of its sender. -/
structure LaunchObservation where
  context : String
  launchId : String
  pid : ℕ
  processGroup : ℤ
  deriving DecidableEq

/-- `truncate_error`: the text that is left, and whether it was cut. -/
def truncateError (error : String) : String × Bool :=
  let limit := 1024
  let marker := " [truncated]"
  if error.utf8ByteSize ≤ limit then (error, false)
  else (String.ofList (Agent.takeBytes (limit - marker.utf8ByteSize) error.toList) ++ marker, true)

/-- The error text of an event, if it has one, is cut. -/
def truncateErrors : SandboxProcessEvent → SandboxProcessEvent × Bool
  | .terminationAttempted (some error) => (.terminationAttempted (some (truncateError error).1), (truncateError error).2)
  | .groupCleanup (some error) => (.groupCleanup (some (truncateError error).1), (truncateError error).2)
  | .captureCompleted stream retainedBytes (some error) =>
      (.captureCompleted stream retainedBytes (some (truncateError error).1), (truncateError error).2)
  | .cleanupFailed error => (.cleanupFailed (truncateError error).1, (truncateError error).2)
  | event => (event, false)

/-- The row that `emit` sends. -/
def LaunchObservation.row (launch : LaunchObservation) (event : SandboxProcessEvent) : SandboxProcessObservation :=
  { launchId := launch.launchId, context := launch.context, pid := launch.pid, processGroup := launch.processGroup,
    event := (truncateErrors event).1, errorsTruncated := (truncateErrors event).2 }

/-- How far the receiver has given up its channels. -/
inductive Holding where
  | both | output | neither

/-- What the senders and the receiver share (`Transport`, the two channels), the heads of
the receiver, and who is left: the senders, those of them that have given up the channel of
lifecycle only, and the calls of `record_loss` that have counted once. -/
structure Observations (C : Mpsc Sequenced) where
  sequence : ℕ
  dropped : UInt64
  lifecycleDropped : UInt64
  outputDropped : UInt64
  lifecycle : C.State
  output : C.State
  lifecycleHead : Option Sequenced
  outputHead : Option Sequenced
  senders : ℕ
  leaving : ℕ
  recording : ℕ
  receiver : Holding

variable {C : Mpsc Sequenced}

/-- `MAX_CAPACITY`. -/
def maxCapacity : ℕ := 1024

variable (C) in
/-- `sandbox_process_observation_channel`. -/
def sandboxProcessObservationChannel (capacity : ℕ) : Except String (Observations C) :=
  if 1 ≤ capacity ∧ capacity ≤ maxCapacity then
    .ok { sequence := 0, dropped := 0, lifecycleDropped := 0, outputDropped := 0, lifecycle := C.channel capacity,
          output := C.channel capacity, lifecycleHead := none, outputHead := none, senders := 1, leaving := 0,
          recording := 0, receiver := .both }
  else .error "observation capacity must be 1..=1024"

namespace Observations

/-- `Transport::record_loss`, the counter of the channel. -/
def countLoss (s : Observations C) (output : Bool) : Observations C :=
  if output then { s with outputDropped := s.outputDropped + 1 } else { s with lifecycleDropped := s.lifecycleDropped + 1 }

/-- `Transport::record_loss`, the counter of all. -/
def countDropped (s : Observations C) : Observations C := { s with dropped := s.dropped + 1 }

/-- `Transport::record_loss`. -/
def recordLoss (s : Observations C) (output : Bool) : Observations C := (s.countLoss output).countDropped

/-- `LaunchObservation::emit`, with what it sent. -/
def emit (s : Observations C) (launch : LaunchObservation) (event : SandboxProcessEvent) :
    Option Sequenced × Observations C :=
  let row := launch.row event
  if s.sequence + 1 < 2 ^ 64 then
    let sequenced : Sequenced := ⟨s.sequence, row⟩
    if row.isOutput then
      match C.trySend s.output sequenced with
      | (true, queue) => (some sequenced, { s with output := queue, sequence := s.sequence + 1 })
      | (false, queue) => (none, { s with output := queue }.recordLoss true)
    else
      match C.trySend s.lifecycle sequenced with
      | (true, queue) => (some sequenced, { s with lifecycle := queue, sequence := s.sequence + 1 })
      | (false, queue) => (none, { s with lifecycle := queue }.recordLoss false)
  else (none, s.recordLoss row.isOutput)

/-- `fill_head`: whether the channel is closed, the channel and the head. -/
def fillHead (receive : C.State) (head : Option Sequenced) : Bool × C.State × Option Sequenced :=
  match head with
  | some event => (false, receive, some event)
  | none =>
      match C.tryRecv receive with
      | (.ok event, receive) => (false, receive, some event)
      | (.error .disconnected, receive) => (true, receive, none)
      | (.error .empty, receive) => (false, receive, none)

/-- `fill_head` of both channels. -/
def fillHeads (s : Observations C) : Bool × Bool × Observations C :=
  let life := fillHead s.lifecycle s.lifecycleHead
  let output := fillHead s.output s.outputHead
  (life.1, output.1,
    { s with lifecycle := life.2.1, lifecycleHead := life.2.2, output := output.2.1, outputHead := output.2.2 })

/-- `take_head`. -/
def takeHead (s : Observations C) : Option SandboxProcessObservation × Observations C :=
  match s.lifecycleHead, s.outputHead with
  | some life, some output =>
      if life.sequence < output.sequence then (some life.observation, { s with lifecycleHead := none })
      else (some output.observation, { s with outputHead := none })
  | some life, none => (some life.observation, { s with lifecycleHead := none })
  | none, some output => (some output.observation, { s with outputHead := none })
  | none, none => (none, s)

/-- `try_recv`. -/
def tryRecv (s : Observations C) : Except TryRecvError SandboxProcessObservation × Observations C :=
  match s.fillHeads with
  | (lifecycleClosed, outputClosed, s) =>
      match s.takeHead with
      | (some event, s) => (.ok event, s)
      | (none, s) => (.error (if lifecycleClosed && outputClosed then .disconnected else .empty), s)

/-- One channel of the second pass of `poll_recv`: how many are closed, the channel and the head. -/
def pollHead (receive : C.State) (head : Option Sequenced) : ℕ × C.State × Option Sequenced :=
  match head with
  | some event => (0, receive, some event)
  | none =>
      match C.pollRecv receive with
      | (.ready (some event), receive) => (0, receive, some event)
      | (.ready none, receive) => (1, receive, none)
      | (.pending, receive) => (0, receive, none)

/-- The second pass of `poll_recv`. -/
def pollHeads (s : Observations C) : ℕ × Observations C :=
  let life := pollHead s.lifecycle s.lifecycleHead
  let output := pollHead s.output s.outputHead
  (life.1 + output.1,
    { s with lifecycle := life.2.1, lifecycleHead := life.2.2, output := output.2.1, outputHead := output.2.2 })

/-- `poll_recv`. -/
def pollRecv (s : Observations C) : Poll (Option SandboxProcessObservation) × Observations C :=
  match s.fillHeads with
  | (lifecycleClosed, outputClosed, s) =>
      match s.takeHead with
      | (some event, s) => (.ready (some event), s)
      | (none, s) =>
          if lifecycleClosed && outputClosed then (.ready none, s)
          else
            match s.pollHeads with
            | (closed, s) =>
                match s.takeHead with
                | (some event, s) => (.ready (some event), s)
                | (none, s) => (if closed = 2 then .ready none else .pending, s)

end Observations

/-- An operation on the shared parts. -/
inductive ObservationOp where
  | emit (launch : LaunchObservation) (event : SandboxProcessEvent)
  | countLoss
  | countDropped
  | cloneSender
  | dropLifecycleSender
  | dropOutputSender
  | tryRecv
  | pollRecv
  | dropLifecycleReceiver
  | dropOutputReceiver
  deriving DecidableEq

/-- What an operation answers: `sent` is an `emit` whose `try_send` succeeded. -/
inductive Observed where
  | sent (row : Sequenced)
  | refused
  | done
  | delivered (observation : SandboxProcessObservation)
  | nothing
  | closed
  deriving DecidableEq

namespace Observations

/-- Perform an operation. -/
def perform (s : Observations C) : ObservationOp → Observed × Observations C
  | .emit launch event =>
      match s.emit launch event with
      | (some row, s) => (.sent row, s)
      | (none, s) => (.refused, s)
  | .countLoss => (.done, { s.countLoss false with recording := s.recording + 1 })
  | .countDropped => (.done, { s.countDropped with recording := s.recording - 1 })
  | .cloneSender =>
      (.done, { s with lifecycle := C.cloneSender s.lifecycle, output := C.cloneSender s.output, senders := s.senders + 1 })
  | .dropLifecycleSender =>
      (.done, { s with lifecycle := C.dropSender s.lifecycle, senders := s.senders - 1, leaving := s.leaving + 1 })
  | .dropOutputSender => (.done, { s with output := C.dropSender s.output, leaving := s.leaving - 1 })
  | .tryRecv =>
      match s.tryRecv with
      | (.ok event, s) => (.delivered event, s)
      | (.error .empty, s) => (.nothing, s)
      | (.error .disconnected, s) => (.closed, s)
  | .pollRecv =>
      match s.pollRecv with
      | (.ready (some event), s) => (.delivered event, s)
      | (.pending, s) => (.nothing, s)
      | (.ready none, s) => (.closed, s)
  | .dropLifecycleReceiver => (.done, { s with lifecycle := C.dropReceiver s.lifecycle, receiver := .output })
  | .dropOutputReceiver => (.done, { s with output := C.dropReceiver s.output, receiver := .neither })

/-- Whoever makes an operation is still there. -/
def MayPerform (s : Observations C) : ObservationOp → Prop
  | .emit .. | .countLoss | .cloneSender | .dropLifecycleSender => 0 < s.senders
  | .countDropped => 0 < s.recording
  | .dropOutputSender => 0 < s.leaving
  | .tryRecv | .pollRecv | .dropLifecycleReceiver => s.receiver = .both
  | .dropOutputReceiver => s.receiver = .output

end Observations

variable (C) in
/-- The senders and the receiver at work. -/
def observing : Machine ObservationOp (fun _ => Observed) (Observations C) where
  step := Observations.perform

/-- The operations of a run with their answers. -/
abbrev ObservationLog := List ((_ : ObservationOp) × Observed)

namespace ObservationLog

/-- The rows whose `try_send` succeeded. -/
def sent (log : ObservationLog) : List Sequenced :=
  log.filterMap fun
    | ⟨_, .sent row⟩ => some row
    | _ => none

/-- What the receiver delivered. -/
def delivered (log : ObservationLog) : List SandboxProcessObservation :=
  log.filterMap fun
    | ⟨_, .delivered observation⟩ => some observation
    | _ => none

/-- How many events were refused. -/
def refused (log : ObservationLog) : ℕ := log.countP fun entry => entry.2 = .refused

/-- How many calls of `record_loss` have counted once. -/
def begun (log : ObservationLog) : ℕ := log.countP fun entry => entry.1 = .countLoss

/-- How many calls of `record_loss` have counted twice. -/
def recorded (log : ObservationLog) : ℕ := log.countP fun entry => entry.1 = .countDropped

end ObservationLog

end Sandbox
end Kolyan
