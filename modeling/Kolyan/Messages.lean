/-
# Model messages

`kolyan-model`: the neutral conversation that a model is asked with and answers
to.  A Turn reads the tool calls of a response and appends messages to a
request; what else a request or a response carries goes through unchanged and
is left out here.
-/

import Kolyan.Value

namespace Kolyan

/-- `ToolCall`. -/
structure ToolCall where
  id : String
  name : String
  arguments : Value
  deriving DecidableEq

/-- `ToolResult`. -/
structure ToolResult where
  callId : String
  content : String
  isError : Bool
  deriving DecidableEq

/-- `ImageSource`. -/
inductive ImageSource where
  | url (url : String)
  | base64 (mediaType data : String)
  deriving DecidableEq

/-- `ContentBlock`. -/
inductive ContentBlock where
  | text (text : String)
  | image (source : ImageSource)
  | document (source : ImageSource) (title : Option String)
  | toolCall (call : ToolCall)
  | toolResult (result : ToolResult)
  | reasoning (text : String) (opaqueState : Option Value)
  deriving DecidableEq

/-- `MessageRole`. -/
inductive MessageRole where
  | user | assistant
  deriving DecidableEq

/-- `Message`. -/
structure Message where
  role : MessageRole
  content : List ContentBlock
  deriving DecidableEq

/-- `ModelRequest`. -/
structure ModelRequest where
  requestId : String
  messages : List Message
  deriving DecidableEq

/-- `ModelResponse`. -/
structure ModelResponse where
  content : List ContentBlock
  deriving DecidableEq

/-- The tool calls among content blocks, in order (`tool_calls` of the Turn). -/
def toolCalls (content : List ContentBlock) : List ToolCall :=
  content.filterMap fun
    | .toolCall call => some call
    | _ => none

/-- The message of one tool result. -/
def ToolResult.message (result : ToolResult) : Message :=
  { role := .user, content := [.toolResult result] }

/-- The assistant message of a response. -/
def assistantMessage (content : List ContentBlock) : Message :=
  { role := .assistant, content }

/-- `append_tool_context`. -/
def appendToolContext (messages : List Message) (content : List ContentBlock)
    (results : List ToolResult) : List Message :=
  messages ++ assistantMessage content :: results.map ToolResult.message

/-- `ToolResult`, encoded. -/
def ToolResult.toValue (r : ToolResult) : Value :=
  .object [("call_id", .string r.callId), ("content", .string r.content), ("is_error", .bool r.isError)]

theorem ToolResult.toValue_injective : Function.Injective ToolResult.toValue := by
  rintro ⟨callId, content, isError⟩ ⟨callId', content', isError'⟩ h
  simpa [ToolResult.toValue] using h

/-- `ToolCall`, encoded. -/
def ToolCall.toValue (c : ToolCall) : Value :=
  .object [("id", .string c.id), ("name", .string c.name), ("arguments", c.arguments)]

end Kolyan
