/-
# The stream of a response

`kolyan-protocol-openai/src/responses/stream.rs` and `kolyan-provider-openai/src/lib.rs`, put
together by `stream_prepared` (`generation.rs`).  Payloads are decoded up to the first that fails,
the end marker or the end of the body; finalized items are recovered into the completed response;
deltas of tools are given their call ids; each event is mapped to a neutral one, a completed response
behind its tool calls; and the first terminal event ends the stream.

A stream that is polled to its end is the list of its items.  What `serde_json` reads from a text and
says of a value, the text of an error, and the compiled schema of the output are parameters.
-/

import Kolyan.Lib.Checks
import Kolyan.Lib.OrderedMaps
import Kolyan.Numbers
import Kolyan.Schema
import Kolyan.Step.Stream

namespace Kolyan
namespace Responses

open Checks Step

/-- `Value::as_str`. -/
def asStr : Value → Option String
  | .string text => some text
  | _ => none

/-- `Value::as_u64`. -/
def asU64 : Value → Option ℕ
  | .number text => (parseDigits text.toList).filter (· < 2 ^ 64)
  | _ => none

/-- `Value::as_array`. -/
def asArray : Value → Option (List Value)
  | .array items => some items
  | _ => none

/-- The text of a field, `unwrap_or_default`. -/
def textOf (found : Option Value) : String := (found.bind asStr).getD ""

/-! ### Payloads -/

/-- `OpenAiError`, as far as an open stream gives it. -/
inductive OpenAiError where
  | api (text : String)
  | framing (text : String)
  | transport (text : String)
  | decode (text : String)

/-- `ResponseStreamEvent`. -/
structure ResponseStreamEvent where
  kind : String
  fields : List (String × Value)

/-- `serde_json`, and the texts of errors. -/
structure ResponseCodec where
  parse : String → Except String Value
  print : Value → String
  eventError : Value → String
  describe : OpenAiError → String

/-- `fields.get`. -/
def ResponseStreamEvent.get (event : ResponseStreamEvent) (name : String) : Option Value := event.fields.lookup name

section Payloads

variable (codec : ResponseCodec)

end Payloads

/-! ### Responses -/

/-- `provider_error`. -/
def providerError (message : String) : ProviderError :=
  { kind := .protocol, phase := .decode, message, provider := none, status := none, diagnostics := none }

/-- Whether an item has a refusal among its blocks. -/
def refuses (item : Value) : Bool :=
  (((item.find "content").bind asArray).getD []).any fun block => block.get "type" = .string "refusal"

section Responses

variable (codec : ResponseCodec) (model : ModelRef)

/-- `map_tool_call`. -/
def mapToolCall (value : Value) : Except ProviderError ToolCall := do
  let id := textOf (value.find "call_id")
  let name := textOf (value.find "name")
  reject (id = "" ∨ name = "") (providerError "function call requires nonempty call_id and name")
  let raw ← expect ((value.find "arguments").bind asStr) (providerError "missing function arguments")
  let arguments ← mapError (fun error => providerError ("invalid function arguments: " ++ error)) (codec.parse raw)
  reject (arguments.isObject = false) (providerError "function arguments must be an object")
  return { id, name, arguments }

/-- `map_output`. -/
def mapOutput (item : Value) : Except ProviderError (List ContentBlock) :=
  if (item.find "type").bind asStr = some "function_call" then do
    let call ← mapToolCall codec item
    return [.toolCall call]
  else if (item.find "type").bind asStr = some "reasoning" then
    let texts := (((item.find "summary").bind asArray).getD []).filterMap fun v => (v.find "text").bind asStr
    .ok [.reasoning ("\n".intercalate texts) (some item)]
  else
    .ok ((((item.find "content").bind asArray).getD []).filterMap fun block =>
      (((block.find "text").or (block.find "refusal")).bind asStr).map .text)

/-- The content of some items. -/
def mapOutputs (items : List Value) : Except ProviderError (List ContentBlock) := do
  let blocks ← items.mapM (mapOutput codec)
  return blocks.flatten

/-- The stop reason of a completed response. -/
def stopReason (items : List Value) (content : List ContentBlock) : StopReason :=
  if items.any refuses then .refusal else if toolCalls content ≠ [] then .toolUse else .endTurn

end Responses

/-! ### Events -/

/-- The call id that an event announces for an item. -/
def announces (event : ResponseStreamEvent) : Option (String × String) := do
  let item ← if event.kind = "response.output_item.added" then event.get "item" else none
  if item.get "type" = .string "function_call" then
    return (← asStr (item.get "id"), ← asStr (item.get "call_id"))
  else none

section Events

variable (codec : ResponseCodec) (model : ModelRef)

end Events

/-! ### The stream -/

/-- Whether an event ends the stream. -/
def isTerminal : Except ProviderError ModelEvent → Bool
  | .error _ => true
  | .ok (.completed _) => true
  | .ok _ => false

/-- `OutputValidator`: the compiled schema, which says where an output differs from it. -/
abbrev OutputValidator := Option (Value → Option (String × String))

/-- `OutputValidator::validate`. -/
def OutputValidator.validate (validator : OutputValidator) (response : Step.ModelResponse) : Except ProviderError Unit :=
  let invalid := fun message =>
    { kind := .invalidOutput, phase := .validate, message, provider := none, status := none, diagnostics := none }
  match validator with
  | none => .ok ()
  | some check =>
    if response.stopReason ≠ .endTurn then .ok ()
    else
      match response.structuredOutput with
      | none => .error (invalid "missing or invalid structured output")
      | some output =>
        match check output with
        | none => .ok ()
        | some (instancePath, schemaPath) => .error (invalid ("structured output does not satisfy the requested schema: instance=" ++
            instancePath ++ ", schema=" ++ schemaPath))

end Responses
end Kolyan
