import Parley.Tool.Name
import Parley.Wire.Completion
import Parley.Wire.Dialogue

/-!
# Requests in the Anthropic format

A history is sent as a dialogue: the leading system messages are taken off, and what the others say
is put into turns, message by message.  The first turn must be the user's, so turns that are none or
begin with the model get a placeholder in front.
-/

namespace Parley.Wire.Anthropic

open Chat (Block Image Message ToolCall ToolChoice ToolSchema)
open Tool (sanitizeName)

/-! ### Entries -/

/-- An image: its payload where the address carries it, and the address otherwise. -/
def imageSource (image : Image) : Json :=
  match image.inline? with
  | some inline =>
    .object [("type", .str "base64"), ("media_type", .str inline.mimeType),
      ("data", .str inline.data)]
  | none => .object [("type", .str "url"), ("url", .str image.url)]

/-- A text or image block. -/
def blockSpec : Block → Json
  | .text t => .object [("type", .str "text"), ("text", .str t)]
  | .image i => .object [("type", .str "image"), ("source", imageSource i)]

/-- A tool call. -/
def callSpec (call : ToolCall) : Json :=
  .object [("type", .str "tool_use"), ("id", .str call.id), ("name", .str (sanitizeName call.name)),
    ("input", .obj call.argumentsOrEmpty)]

/-- The result of the tool call with an id. -/
def resultSpec (id text : String) : Json :=
  .object [("type", .str "tool_result"), ("tool_use_id", .str id), ("content", .str text)]

/-- What a message says.  Assistants say no empty texts. -/
def said (m : Message) : Turn Json :=
  match m.role with
  | .tool => ⟨.user, [resultSpec (m.toolCallId?.getD "") m.text]⟩
  | .assistant =>
    ⟨.model, (m.content.toBlocks.filter hasContent).map blockSpec ++ m.toolCalls.map callSpec⟩
  | .user | .system => ⟨.user, m.content.toBlocks.map blockSpec⟩

/-! ### Turns -/

/-- The role of a side. -/
def roleOf : Side → String
  | .user => "user"
  | .model => "assistant"

/-- A turn. -/
def turnSpec (t : Turn Json) : Json :=
  .object [("role", .str (roleOf t.side)), ("content", .arr t.entries)]

/-- The turn that stands in for a user who has said nothing. -/
def placeholder : Json := .object [("role", .str "user"), ("content", .str "")]

/-- Whether turns begin with the user. -/
def opensWithUser {α : Type} : List (Turn α) → Bool
  | t :: _ => t.side = .user
  | [] => false

/-- The turns of a dialogue, the first of which is the user's. -/
def turnSpecs (turns : List (Turn Json)) : List Json :=
  if opensWithUser turns then turns.map turnSpec else placeholder :: turns.map turnSpec

/-- The system text and the turns of a history. -/
def messages (history : List Message) : Option String × List Json :=
  let turns := (history.dropWhile isSystem).foldl (fun turns m => push turns (said m)) []
  (systemText? ((history.takeWhile isSystem).map Message.text), turnSpecs turns.reverse)

/-! ### Payloads -/

/-- A tool. -/
def toolSpec (t : ToolSchema) : Json :=
  .object [("name", .str (sanitizeName t.name)), ("description", .str t.description),
    ("input_schema", t.parameters)]

/-- The tools of a list. -/
def tools (ts : List ToolSchema) : List Json := ts.map toolSpec

/-- Which tool the model may call; nothing is sent for the default. -/
def toolChoice : ToolChoice → Option Json
  | .auto => none
  | .none => some (.object [("type", .str "none")])
  | .required => some (.object [("type", .str "any")])
  | .function name => some (.object [("type", .str "tool"), ("name", .str (sanitizeName name))])

/-- The limit on the length of an answer where none is configured. -/
def defaultMaxTokens : Nat := 4096

/-- The payload of a chat request. -/
def chatPayload (model : String) (maxTokens? : Option Nat) (history : List Message)
    (ts : List ToolSchema) (options : Options) (streamed : Bool) : Json :=
  let (system?, turns) := messages history
  .object <|
    [("model", .str model), ("messages", .arr turns),
      ("max_tokens", .nat (maxTokens?.getD defaultMaxTokens))] ++
    Json.member? "system" .str system? ++
    (if ts.isEmpty then []
      else ("tools", .arr (tools ts)) :: Json.member? "tool_choice" id
        (toolChoice options.toolChoice)) ++
    Json.member? "temperature" Floating.Single.toJson options.temperature? ++
    (if streamed then [("stream", .bool true)] else [])

end Parley.Wire.Anthropic
