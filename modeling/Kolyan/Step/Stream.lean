/-
# The stream of a Step

`kolyan-core/src/step.rs`: one bounded model call.  `start_with_control` opens the
Provider under a stop boundary and wraps the stream it gets twice: the controlled
stream starts it, stops it, checks its completion and translates its events; the
recording stream hands each event to a recorder before it passes it on.
`aggregate_step_stream` reads such a stream to its end.

What is outside is `Outside`: what the boundary sees at each of its polls
(cancellation and deadline may come at any of them), what the Provider's stream
answers when it is polled right after, how the validator judges a result, and how
the recorder answers its first, second, ... call.
-/

import Kolyan.Messages
import Kolyan.Lib.Streams

namespace Kolyan
namespace Step

open Streams

section Model

/-- `TokenUsage`. -/
structure TokenUsage where
  inputTokens : Option ℕ
  outputTokens : Option ℕ
  cacheReadTokens : Option ℕ
  cacheWriteTokens : Option ℕ
  reasoningTokens : Option ℕ
  deriving DecidableEq

/-- `StopReason`. -/
inductive StopReason where
  | endTurn | toolUse | maxOutputTokens | refusal
  | other (detail : String)
  deriving DecidableEq

/-- `ModelRef`. -/
structure ModelRef where
  provider : String
  model : String
  deriving DecidableEq

/-- `ModelResponse`. -/
structure ModelResponse where
  id : String
  model : ModelRef
  content : List ContentBlock
  structuredOutput : Option Value
  stopReason : StopReason
  usage : TokenUsage
  metadata : Value
  deriving DecidableEq

/-- `ProviderMetadata`. -/
structure ProviderMetadata where
  provider : String
  raw : Option Value
  deriving DecidableEq

/-- `ModelEvent`. -/
inductive ModelEvent where
  | started
  | textDelta (text : String)
  | reasoningDelta (text : String)
  | toolCallStarted (id name : String)
  | toolCallArgumentsDelta (id delta : String)
  | toolCallCompleted (call : ToolCall)
  | usage (usage : TokenUsage)
  | completed (response : ModelResponse)
  | provider (metadata : ProviderMetadata)
  deriving DecidableEq

/-- `ProviderErrorKind`. -/
inductive ProviderErrorKind where
  | authentication | invalidRequest | rateLimited | unavailable | transport | protocol | invalidOutput
  | unsupported | other

/-- `ProviderErrorPhase`. -/
inductive ProviderErrorPhase where
  | opening | stream | decode | validate

/-- `ProviderError`. -/
structure ProviderError where
  kind : ProviderErrorKind
  phase : ProviderErrorPhase
  message : String
  provider : Option String
  status : Option ℕ
  diagnostics : Option Value

end Model

section Steps

/-- `StepRequest`; the deadline of its options is what the boundary looks at. -/
structure StepRequest where
  stepId : String
  modelRequest : ModelRequest

/-- `StepOutcome`. -/
inductive StepOutcome where
  | finalAnswer | toolCalls | refused | incomplete

/-- `StepResult`. -/
structure StepResult where
  stepId : String
  response : ModelResponse
  outcome : StepOutcome

/-- `StepValidationError`. -/
structure StepValidationError where
  message : String

/-- `StepEventRecordError`. -/
structure StepEventRecordError where
  message : String

/-- `StepEvent`. -/
inductive StepEvent where
  | started (stepId : String)
  | textDelta (stepId text : String)
  | reasoningDelta (stepId text : String)
  | toolCallStarted (stepId id name : String)
  | toolCallArgumentsDelta (stepId id delta : String)
  | toolCallCompleted (stepId : String) (call : ToolCall)
  | usage (stepId : String) (usage : TokenUsage)
  | provider (stepId : String) (metadata : ProviderMetadata)
  | completed (result : StepResult)
  | cancelled (stepId : String)
  | timedOut (stepId : String)

/-- `StepError`. -/
inductive StepError where
  | provider (error : ProviderError)
  | protocol (message : String)
  | invalidRequest (message : String)
  | validation (error : StepValidationError)
  | recording (error : StepEventRecordError)
  | cancelled
  | timedOut

/-- What a step stream yields. -/
abbrev Item := Except StepError StepEvent

end Steps

section Boundary

/-- `Stop`. -/
inductive Stop where
  | cancelled | timedOut

/-- What one poll of the boundary sees: the cancellation flag and the deadline at
`current_stop`, whether the cancellation future and the timer are ready, and the
flag read again after the timer. -/
structure Look where
  cancelled : Bool
  expired : Bool
  woken : Bool
  fired : Bool
  cancelledSince : Bool

/-- `Boundary::current_stop`. -/
def currentStop (look : Look) : Option Stop :=
  if look.cancelled then some .cancelled
  else if look.expired then some .timedOut
  else none

/-- `Boundary::poll_stop`. -/
def pollStop (look : Look) : Option Stop :=
  match currentStop look with
  | some stop => some stop
  | none =>
      if look.woken then some .cancelled
      else if look.fired then some (if look.cancelledSince then .cancelled else .timedOut)
      else none

end Boundary

/-- What a Step runs against.  The Provider's stream is polled at most once for
each look of the boundary, right after it. -/
structure Outside where
  look : ℕ → Look
  provider : ℕ → Poll (Option (Except ProviderError ModelEvent))
  validate : ModelRequest → StepResult → Except StepValidationError Unit
  recorder : Option (ℕ → StepEvent → Except StepEventRecordError Unit)

/-- How the opening of the Provider ended: a stop won (before it or during it), or
the Provider answered. -/
inductive Opening where
  | stopped (stop : Stop)
  | answered (answer : Except ProviderError Unit)

/-- The outcome a stop reason stands for. -/
def outcomeOf : StopReason → StepOutcome
  | .endTurn => .finalAnswer
  | .toolUse => .toolCalls
  | .refusal => .refused
  | .maxOutputTokens | .other _ => .incomplete

/-- The result a response is. -/
def resultOf (stepId : String) (response : ModelResponse) : StepResult :=
  { stepId, response, outcome := outcomeOf response.stopReason }

/-- `map_model_event`. -/
def mapModelEvent (stepId : String) : ModelEvent → StepEvent
  | .started => .started stepId
  | .textDelta text => .textDelta stepId text
  | .reasoningDelta text => .reasoningDelta stepId text
  | .toolCallStarted id name => .toolCallStarted stepId id name
  | .toolCallArgumentsDelta id delta => .toolCallArgumentsDelta stepId id delta
  | .toolCallCompleted call => .toolCallCompleted stepId call
  | .usage usage => .usage stepId usage
  | .provider metadata => .provider stepId metadata
  | .completed response => .completed (resultOf stepId response)

/-- `ControlledStepStream`: `inner` and `boundary` say that the part is still held,
`looks` counts the polls of the boundary. -/
structure ControlledStepStream where
  inner : Bool
  stepId : String
  modelRequest : ModelRequest
  boundary : Bool
  stopped : Option Stop
  started : Bool
  completed : Bool
  terminal : Bool
  looks : ℕ

namespace ControlledStepStream

variable (out : Outside) (s : ControlledStepStream)

/-- `ControlledStepStream::release`. -/
def release : ControlledStepStream :=
  { s with terminal := true, inner := false, boundary := false }

/-- The item of `ControlledStepStream::stop_event`, which releases the stream too. -/
def stopEvent (stop : Stop) : Item :=
  match stop, s.completed with
  | .cancelled, true => .error .cancelled
  | .timedOut, true => .error .timedOut
  | .cancelled, false => .ok (.cancelled s.stepId)
  | .timedOut, false => .ok (.timedOut s.stepId)

/-- The stop that a poll finds: the one of the opening, else what the boundary
shows; a released boundary stops the program. -/
def stopNow : Option (Option Stop) :=
  match s.stopped with
  | some stop => some (some stop)
  | none => if s.boundary then some (pollStop (out.look s.looks)) else none

/-- What a poll makes of the Provider's answer. -/
def receive : Poll (Option (Except ProviderError ModelEvent)) →
    Poll (Option Item) × ControlledStepStream
  | .ready (some (.ok event)) =>
      if s.completed then
        (.ready (some (.error (.protocol "event received after completed"))), s.release)
      else
        match event with
        | .started => (.pending, s)
        | .completed response =>
            match out.validate s.modelRequest (resultOf s.stepId response) with
            | .error error => (.ready (some (.error (.validation error))), s.release)
            | .ok () =>
                (.ready (some (.ok (mapModelEvent s.stepId (.completed response)))),
                  { s with completed := true })
        | event => (.ready (some (.ok (mapModelEvent s.stepId event))), s)
  | .ready (some (.error error)) =>
      if s.completed then
        (.ready (some (.error (.protocol "provider error received after completed"))), s.release)
      else (.ready (some (.error (.provider error))), s.release)
  | .ready none =>
      if s.completed then (.ready none, s.release)
      else
        (.ready (some (.error (.protocol "step stream ended without a terminal event"))), s.release)
  | .pending => (.pending, s)

/-- `ControlledStepStream::poll_next`. -/
def pollNext : Option (Poll (Option Item) × ControlledStepStream) :=
  if s.terminal then some (.ready none, s)
  else if !s.started then some (.ready (some (.ok (.started s.stepId))), { s with started := true })
  else
    match s.stopNow out with
    | none => none
    | some (some stop) => some (.ready (some (s.stopEvent stop)), s.release)
    | some none =>
        if s.inner then
          some (({ s with looks := s.looks + 1 } : ControlledStepStream).receive out
            (out.provider s.looks))
        else none

end ControlledStepStream

/-- `RecordingStepStream`: `recorded` counts the calls of the recorder. -/
structure RecordingStepStream where
  inner : Option ControlledStepStream
  terminal : Bool
  recorded : ℕ

/-- `RecordingStepStream::poll_next`. -/
def RecordingStepStream.pollNext (out : Outside)
    (record : ℕ → StepEvent → Except StepEventRecordError Unit) (s : RecordingStepStream) :
    Option (Poll (Option Item) × RecordingStepStream) :=
  if s.terminal then some (.ready none, s)
  else
    match s.inner with
    | none => none
    | some inner =>
        match inner.pollNext out with
        | none => none
        | some (.ready (some (.ok event)), inner') =>
            match record s.recorded event with
            | .ok () =>
                some (.ready (some (.ok event)),
                  { s with inner := some inner', recorded := s.recorded + 1 })
            | .error error =>
                some (.ready (some (.error (.recording error))),
                  { inner := none, terminal := true, recorded := s.recorded + 1 })
        | some (.ready (some (.error error)), _) =>
            some (.ready (some (.error error)), { s with inner := none, terminal := true })
        | some (.ready none, _) => some (.ready none, { s with inner := none, terminal := true })
        | some (.pending, inner') => some (.pending, { s with inner := some inner' })

/-- `StepEventStream`: the controlled stream, or one that records it. -/
inductive StepEventStream where
  | controlled (stream : ControlledStepStream)
  | recording (stream : RecordingStepStream)

/-- `poll_next` of either. -/
def pollNext (out : Outside) : Polls StepEventStream Item
  | .controlled stream => (stream.pollNext out).map fun r => (r.1, .controlled r.2)
  | .recording stream =>
      match out.recorder with
      | none => none
      | some record => (stream.pollNext out record).map fun r => (r.1, .recording r.2)

/-- `StepExecutor::start_with_control`. -/
def startWithControl (out : Outside) (opening : Opening) (request : StepRequest) :
    Except StepError StepEventStream :=
  if request.stepId.isEmpty then .error (.invalidRequest "step_id must not be empty")
  else
    let stream (inner : Bool) (stopped : Option Stop) : StepEventStream :=
      let controlled : ControlledStepStream :=
        { inner, stepId := request.stepId, modelRequest := request.modelRequest, boundary := true,
          stopped, started := false, completed := false, terminal := false, looks := 0 }
      match out.recorder with
      | some _ => .recording { inner := some controlled, terminal := false, recorded := 0 }
      | none => .controlled controlled
    match opening with
    | .stopped stop => .ok (stream false (some stop))
    | .answered (.error error) => .error (.provider error)
    | .answered (.ok ()) => .ok (stream true none)

section Aggregation

/-- What `aggregate_step_stream` does with one item. -/
def aggregateItem (completed : Option StepResult) : Item → Except StepError (Option StepResult)
  | .error error => .error error
  | .ok (.completed result) =>
      if completed.isNone then .ok (some result) else .error (.protocol "multiple completed events")
  | .ok (.cancelled _) => .error .cancelled
  | .ok (.timedOut _) => .error .timedOut
  | .ok _ =>
      if completed.isSome then .error (.protocol "event received after completed") else .ok completed

/-- What it answers at the end. -/
def aggregateEnd : Option StepResult → Except StepError StepResult
  | some result => .ok result
  | none => .error (.protocol "step stream ended without a terminal event")

/-- `aggregate_step_stream`, if it ends within `n` polls. -/
def aggregateStepStream (out : Outside) (n : ℕ) (stream : StepEventStream) :
    Option (Except StepError StepResult) :=
  consume (pollNext out) aggregateItem aggregateEnd n none stream

end Aggregation

end Step
end Kolyan
