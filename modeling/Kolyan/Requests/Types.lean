/-
# Requests to a model, with all their parameters

`kolyan-model`: `types.rs`, `cache.rs`, `tool.rs`, `capability.rs` and the errors of
`planning.rs`.  A request is the conversation of a Turn (`Kolyan.Messages`) with what
else is asked of the model.  The typed parameters are written as JSON values and read
from them (`take`); an enumeration is read from its name, or from an object with the
name as its one key, as `serde` does.
-/

import Kolyan.Messages
import Kolyan.Tasks.Encoding

namespace Kolyan
namespace Requests

/-- `ModelRef`. -/
structure ModelRef where
  provider : String
  model : String
  deriving DecidableEq

/-- `SystemInstruction`. -/
structure SystemInstruction where
  text : String
  cache : Bool
  deriving DecidableEq

/-- `ToolDefinition`. -/
structure ToolDefinition where
  name : String
  description : Option String
  inputSchema : Value
  deriving DecidableEq

/-- `ToolChoice`. -/
inductive ToolChoice where
  | auto
  | none
  | required
  | tool (name : String)
  deriving DecidableEq

/-- A choice that asks for a tool. -/
def ToolChoice.asksForTool : ToolChoice → Bool
  | required | tool _ => true
  | auto | none => false

/-- `OutputFormat`. -/
structure OutputFormat where
  name : String
  schema : Value
  strict : Bool
  deriving DecidableEq

/-- `CacheRetention`. -/
inductive CacheRetention where
  | inMemory | twentyFourHours
  deriving DecidableEq

/-- `CacheBreakpoint`. -/
inductive CacheBreakpoint where
  | system | tools | messages
  deriving DecidableEq

/-- `PromptCacheConfig`. -/
structure PromptCacheConfig where
  key : Option String
  retention : Option CacheRetention
  breakpoints : List CacheBreakpoint
  deriving DecidableEq

/-- `ReasoningConfig`. -/
structure ReasoningConfig where
  effort : Option String
  budgetTokens : Option UInt32
  deriving DecidableEq

/-- The value of `extensions`: nothing, an object, or something else. -/
inductive Extensions where
  | null
  | object (fields : Std.ExtTreeMap String Value)
  | other (value : Value)
  deriving DecidableEq

/-- `Value::get` of the extensions. -/
def Extensions.get (extensions : Extensions) (key : String) : Option Value :=
  match extensions with
  | object fields => fields[key]?
  | null | other _ => none

/-- `ModelRequest`. -/
structure ModelRequest extends Kolyan.ModelRequest where
  model : ModelRef
  system : List SystemInstruction
  tools : List ToolDefinition
  toolChoice : ToolChoice
  outputFormat : Option OutputFormat
  promptCache : Option PromptCacheConfig
  reasoning : Option ReasoningConfig
  maxOutputTokens : Option UInt32
  extensions : Extensions
  deriving DecidableEq

/-- `ModelFeature`. -/
inductive ModelFeature where
  | textInput | textOutput | imageInput | documentInput | toolUse | parallelToolUse | structuredOutput
  | reasoning | promptCaching | streaming
  deriving DecidableEq

/-- `Debug` of a feature. -/
def ModelFeature.text : ModelFeature → String
  | textInput => "TextInput"
  | textOutput => "TextOutput"
  | imageInput => "ImageInput"
  | documentInput => "DocumentInput"
  | toolUse => "ToolUse"
  | parallelToolUse => "ParallelToolUse"
  | structuredOutput => "StructuredOutput"
  | reasoning => "Reasoning"
  | promptCaching => "PromptCaching"
  | streaming => "Streaming"

/-- `ProviderErrorKind`, as far as planning answers with one. -/
inductive ProviderErrorKind where
  | invalidRequest | unsupported
  deriving DecidableEq

/-- `ProviderError` in the phase `Open`. -/
structure ProviderError where
  kind : ProviderErrorKind
  message : String
  deriving DecidableEq

/-- `invalid`. -/
def invalid (message : String) : ProviderError := ⟨.invalidRequest, message⟩

/-- `unsupported`. -/
def unsupported (message : String) : ProviderError := ⟨.unsupported, message⟩

section Encoding

/-- `ToolChoice`. -/
def ToolChoice.toValue : ToolChoice → Value
  | auto => .string "auto"
  | none => .string "none"
  | required => .string "required"
  | tool name => .object [("tool", .string name)]

/-- `CacheRetention`. -/
def CacheRetention.toValue : CacheRetention → Value
  | inMemory => .string "in_memory"
  | twentyFourHours => .string "twenty_four_hours"

/-- `CacheBreakpoint`. -/
def CacheBreakpoint.toValue : CacheBreakpoint → Value
  | system => .string "system"
  | tools => .string "tools"
  | messages => .string "messages"

/-- A `u32`. -/
def numberValue (n : UInt32) : Value := .nat n.toNat

/-- A text, as it is read. -/
def readString : Value → Option String
  | .string text => some text
  | _ => none

/-- A `u32`, as it is read: a natural number within its range. -/
def readNumber : Value → Option UInt32
  | .number text => match text.toNat? with
    | some n => if h : n < UInt32.size then some (UInt32.ofNatLT n h) else none
    | none => none
  | _ => none

/-- The name of a variant without content, as it is read. -/
def readVariant : Value → Option String
  | .string name => some name
  | .object [(name, .null)] => some name
  | _ => none

/-- A `CacheRetention`, as it is read. -/
def readRetention (value : Value) : Option CacheRetention :=
  match readVariant value with
  | some "in_memory" => some .inMemory
  | some "twenty_four_hours" => some .twentyFourHours
  | _ => none

/-- A `CacheBreakpoint`, as it is read. -/
def readBreakpoint (value : Value) : Option CacheBreakpoint :=
  match readVariant value with
  | some "system" => some .system
  | some "tools" => some .tools
  | some "messages" => some .messages
  | _ => none

/-- A list of breakpoints, as it is read. -/
def readBreakpoints : Value → Option (List CacheBreakpoint)
  | .array items => items.mapM readBreakpoint
  | _ => none

/-- A `ToolChoice`, as it is read. -/
def readToolChoice (value : Value) : Option ToolChoice :=
  match readVariant value with
  | some "auto" => some .auto
  | some "none" => some .none
  | some "required" => some .required
  | _ => match value with
    | .object [("tool", .string name)] => some (.tool name)
    | _ => none

theorem readNumber_numberValue (n : UInt32) : readNumber (numberValue n) = some n := by
  have hlt : n.toNat < UInt32.size := n.toNat_lt_size
  simp [readNumber, numberValue, Value.nat, hlt]

theorem readRetention_toValue (r : CacheRetention) : readRetention r.toValue = some r := by cases r <;> rfl

theorem readBreakpoint_toValue (b : CacheBreakpoint) : readBreakpoint b.toValue = some b := by cases b <;> rfl

theorem readBreakpoints_toValue (bs : List CacheBreakpoint) :
    readBreakpoints (.list CacheBreakpoint.toValue bs) = some bs := by
  have hitems : (bs.map CacheBreakpoint.toValue).mapM readBreakpoint = some bs := by
    induction bs with
    | nil => rfl
    | cons b bs ih => simp [readBreakpoint_toValue, ih]
  exact hitems

theorem readToolChoice_toValue (c : ToolChoice) : readToolChoice c.toValue = some c := by cases c <;> rfl

end Encoding

end Requests
end Kolyan
