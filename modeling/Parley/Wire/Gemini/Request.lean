import Parley.Entries
import Parley.Tool.Name
import Parley.Wire.Completion
import Parley.Wire.Dialogue

/-!
# Requests in the Gemini format

A history is sent as a dialogue.  The format knows no ids of tool calls: a result carries the name
of the function that was called.  So the history is read message by message, and a `Reading` keeps
which name was called under which id last.
-/

namespace Parley.Wire.Gemini

open Chat (Block Message ToolCall ToolChoice ToolSchema)
open Tool (sanitizeName)

/-! ### Entries -/

/-- A text or image part. -/
def blockSpec : Block → Json
  | .text t => .object [("text", .str t)]
  | .image image =>
    match image.inline? with
    | some inline =>
      .object [("inlineData",
        .object [("mimeType", .str inline.mimeType), ("data", .str inline.data)])]
    | none => .object [("fileData", .object [("fileUri", .str image.url)])]

/-- A tool call. -/
def callSpec (call : ToolCall) : Json :=
  .object [("functionCall",
    .object [("name", .str (sanitizeName call.name)), ("args", .obj call.argumentsOrEmpty)])]

/-- The result of a tool as an object: the object that its text is, or an object that holds the
text. -/
def resultObject (text : String) : Json :=
  match Json.parse text with
  | .ok (.obj members) => .obj members
  | _ => .object [("content", .str text)]

/-- The result of a call of the function with a name. -/
def resultSpec (name text : String) : Json :=
  .object [("functionResponse",
    .object [("name", .str (sanitizeName name)), ("response", resultObject text)])]

/-! ### Turns -/

/-- The role of a side. -/
def roleOf : Side → String
  | .user => "user"
  | .model => "model"

/-- A turn. -/
def turnSpec (t : Turn Json) : Json :=
  .object [("role", .str (roleOf t.side)), ("parts", .arr t.entries)]

/-- What has been read of a history. -/
structure Reading where
  /-- The texts of the leading system messages. -/
  texts : List String := []
  /-- Whether all messages were of the system. -/
  isLeading : Bool := true
  /-- The names that were called last by id, in ascending order of id. -/
  names : List (String × String) := []
  /-- The turns, from the latest on. -/
  turns : List (Turn Json) := []
deriving DecidableEq, Repr

namespace Reading

/-- Note the names of calls. -/
def note (r : Reading) (calls : List ToolCall) : Reading :=
  { r with names := calls.foldl (fun names call => Entries.put call.id call.name names) r.names }

/-- Add what a message says. -/
def say (r : Reading) (side : Side) (parts : List Json) : Reading :=
  { r with isLeading := false, turns := push r.turns ⟨side, parts⟩ }

/-- Read a message.  Assistants say no empty texts, and a result of no known call is one of the
function that has its id for a name. -/
def take (r : Reading) (m : Message) : Reading :=
  match m.role with
  | .system =>
    if r.isLeading then { r with texts := r.texts ++ [m.text] }
    else r.say .user (m.content.toBlocks.map blockSpec)
  | .user => r.say .user (m.content.toBlocks.map blockSpec)
  | .assistant =>
    (r.note m.toolCalls).say .model
      ((m.content.toBlocks.filter hasContent).map blockSpec ++ m.toolCalls.map callSpec)
  | .tool =>
    let id := m.toolCallId?.getD ""
    r.say .user [resultSpec ((r.names.lookup id).getD id) m.text]

end Reading

/-- The system text and the turns of a history. -/
def messages (history : List Message) : Option String × List Json :=
  let reading := history.foldl Reading.take {}
  (systemText? reading.texts, reading.turns.reverse.map turnSpec)

/-! ### Payloads -/

/-- A tool. -/
def toolSpec (t : ToolSchema) : Json :=
  .object [("name", .str (sanitizeName t.name)), ("description", .str t.description),
    ("parameters", t.parameters)]

/-- The tools of a list. -/
def tools (ts : List ToolSchema) : List Json := ts.map toolSpec

/-- Which function the model may call. -/
def toolConfig (choice : ToolChoice) : Json :=
  let config : List (String × Json) := match choice with
    | .auto => [("mode", .str "AUTO")]
    | .none => [("mode", .str "NONE")]
    | .required => [("mode", .str "ANY")]
    | .function name =>
      [("mode", .str "ANY"), ("allowedFunctionNames", .arr [.str (sanitizeName name)])]
  .object [("functionCallingConfig", .object config)]

/-- The payload of a chat request. -/
def chatPayload (maxTokens? : Option Nat) (history : List Message) (ts : List ToolSchema)
    (options : Options) : Json :=
  let (system?, contents) := messages history
  let system (text : String) : Json := .object [("parts", .arr [.object [("text", .str text)]])]
  let generation := Json.member? "temperature" Floating.Single.toJson options.temperature? ++
    Json.member? "maxOutputTokens" Json.nat maxTokens?
  .object <|
    [("contents", .arr contents)] ++ Json.member? "systemInstruction" system system? ++
    (if ts.isEmpty then []
      else [("tools", .arr [.object [("functionDeclarations", .arr (tools ts))]]),
        ("toolConfig", toolConfig options.toolChoice)]) ++
    (if generation.isEmpty then [] else [("generationConfig", .object generation)])

/-- The payload of a request for embeddings. -/
def embedPayload (model : String) (texts : List String) : Json :=
  let request (text : String) : Json :=
    .object [("model", .str model),
      ("content", .object [("parts", .arr [.object [("text", .str text)]])])]
  .object [("requests", .arr (texts.map request))]

end Parley.Wire.Gemini
