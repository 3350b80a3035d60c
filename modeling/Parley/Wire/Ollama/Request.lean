import Parley.Chat.Message
import Parley.Wire.Completion
import Parley.Wire.Function

/-!
# Requests in the Ollama format

Bodies are sent as text, with the images that carry their own data beside it.  The format has no ids
of tool calls, so the result of a tool becomes a text of the user that begins with the id of the
call.
-/

namespace Parley.Wire.Ollama

open Chat (Message ToolCall ToolSchema)
open Tool (sanitizeName)

/-! ### Messages -/

/-- A tool call. -/
def callSpec (call : ToolCall) : Json :=
  .object [("function",
    .object [("name", .str (sanitizeName call.name)), ("arguments", .obj call.argumentsOrEmpty)])]

/-- The payloads of the images that carry their own data. -/
def imageData (m : Message) : List String :=
  m.content.images.filterMap fun image => image.inline?.map (·.data)

/-- A message. -/
def messageSpec (m : Message) : Json :=
  if m.role = .tool then
    .object [("role", .str "user"),
      ("content", .str ("[tool:" ++ m.toolCallId?.getD "" ++ "] " ++ m.text))]
  else
    let images := imageData m
    .object <|
      [("role", .str m.role.name), ("content", .str m.text)] ++
      (if images.isEmpty then [] else [("images", Json.texts images)]) ++
      (if m.hasToolCalls then [("tool_calls", .arr (m.toolCalls.map callSpec))] else [])

/-- The messages of a history. -/
def messages (history : List Message) : List Json := history.map messageSpec

/-! ### Payloads -/

/-- The payload of a chat request.  The format has no choice of tools. -/
def chatPayload (model : String) (maxTokens? : Option Nat) (history : List Message)
    (tools : List ToolSchema) (options : Options) (streamed : Bool) : Except Failure Json := do
  let toolFields ← if tools.isEmpty then pure [] else do
    pure [("tools", Json.arr (← functions tools))]
  let modelOptions := Json.member? "temperature" Floating.Single.toJson options.temperature? ++
    Json.member? "num_predict" Json.nat maxTokens?
  return .object <|
    [("model", .str model), ("messages", .arr (messages history)), ("stream", .bool streamed)] ++
    toolFields ++ (if modelOptions.isEmpty then [] else [("options", .object modelOptions)])

/-- The payload of a request for embeddings. -/
def embedPayload (model : String) (texts : List String) : Json :=
  .object [("model", .str model), ("input", Json.texts texts)]

end Parley.Wire.Ollama
