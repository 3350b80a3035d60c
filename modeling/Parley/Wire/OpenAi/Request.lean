import Parley.Chat.Message
import Parley.Wire.Completion
import Parley.Wire.Function

/-!
# Requests in the OpenAI format

Messages have nearly this form already.  What changes on the way out: function names are sanitized,
a blank argument text becomes the empty object, tool calls are sent for assistants only, and the
empty body of a message with tool calls becomes `null`.
-/

namespace Parley.Wire.OpenAi

open Chat (Message Role ToolCall ToolChoice ToolSchema)
open Tool (sanitizeName)

/-! ### Messages -/

/-- A tool call. -/
def callSpec (call : ToolCall) : Json :=
  let arguments := if Text.allBlank call.arguments then "\x7b\x7d" else call.arguments
  .object [("id", .str call.id), ("type", .str "function"),
    ("function",
      .object [("name", .str (sanitizeName call.name)), ("arguments", .str arguments)])]

/-- A message. -/
def messageSpec (m : Message) : Json :=
  let sendsCalls := m.role = .assistant && m.hasToolCalls
  .object <|
    [("role", .str m.role.name),
      ("content", if sendsCalls && m.content.isEmpty then .null else m.content.toJson)] ++
    (if sendsCalls then [("tool_calls", .arr (m.toolCalls.map callSpec))] else []) ++
    Json.member? "tool_call_id" .str m.toolCallId?

/-- The messages of a history. -/
def messages (history : List Message) : List Json := history.map messageSpec

/-! ### Payloads -/

/-- Which function the model may call. -/
def toolChoice : ToolChoice → Json
  | .auto => .str "auto"
  | .none => .str "none"
  | .required => .str "required"
  | .function name =>
    .object [("type", .str "function"), ("function", .object [("name", .str (sanitizeName name))])]

/-- The payload of a chat request. -/
def chatPayload (model : String) (maxTokens? : Option Nat) (history : List Message)
    (tools : List ToolSchema) (options : Options) (streamed : Bool) : Except Failure Json := do
  let toolFields ←
    if tools.isEmpty then pure []
    else do
      let specs ← functions tools
      pure [("tools", Json.arr specs), ("tool_choice", toolChoice options.toolChoice)]
  return .object <|
    [("model", .str model), ("messages", .arr (messages history))] ++ toolFields ++
    Json.member? "temperature" Floating.Single.toJson options.temperature? ++
    Json.member? "max_tokens" Json.nat maxTokens? ++
    (if streamed then [("stream", .bool true)] else [])

/-- The payload of a request for embeddings. -/
def embedPayload (model : String) (texts : List String) : Json :=
  .object [("model", .str model), ("input", Json.texts texts)]

/-- The payload of a request for scores. -/
def rerankPayload (model query : String) (documents : List String) : Json :=
  .object [("model", .str model), ("query", .str query), ("documents", Json.texts documents)]

end Parley.Wire.OpenAi
