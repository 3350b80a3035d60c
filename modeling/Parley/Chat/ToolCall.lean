import Parley.Json.Parser
import Parley.Json.Printer
import Parley.Json.Record
import Parley.Text.Blank

/-!
# Tools and calls to them

A `ToolSchema` is what a model is told about a tool.  A `ToolCall` is a model's request to run one;
its arguments are kept as the text that the model produced, so that a malformed text can be sent
back unchanged.  `ToolCall.parseArguments` reads that text, which must be a JSON object or blank.

A call that waits for a person's decision is shown as a `PendingCall`.
-/

namespace Parley.Chat

/-- The members of a JSON object. -/
abbrev Arguments := List (String × Json)

/-! ### Tools as the model sees them -/

/-- A tool as it is described to a model. -/
structure ToolSchema where
  /-- The name to call it by. -/
  name : String
  /-- What it does. -/
  description : String
  /-- A JSON Schema of the arguments. -/
  parameters : Json
deriving DecidableEq, Repr

/-- A tool as a value. -/
def ToolSchema.toJson (t : ToolSchema) : Json :=
  .object [("name", .str t.name), ("description", .str t.description), ("parameters", t.parameters)]

/-- Which tools a model may pick in one call. -/
inductive ToolChoice where
  /-- The model decides. -/
  | auto
  /-- No tool. -/
  | none
  /-- At least one tool. -/
  | required
  /-- The tool of that name. -/
  | function (name : String)
deriving DecidableEq, Repr, Inhabited

/-- Read a choice of tools. -/
def ToolChoice.ofJson? (v : Json) : Option ToolChoice := do
  let (name, payload?) ← v.choice?
  match name, payload? with
  | "function", some p => return .function (← p.str?)
  | _, _ =>
    match ← v.bareChoice? with
    | "auto" => return .auto
    | "none" => return .none
    | "required" => return .required
    | _ => failure

/-! ### Errors of a tool call -/

/-- Why a tool call failed.  Such a failure never ends a turn: the model is told about it. -/
inductive ToolError where
  /-- There is no such tool. -/
  | notFound (what : String)
  /-- The arguments are not what the tool takes. -/
  | invalidParameters (what : String)
  /-- The tool could not do what was asked. -/
  | executionFailed (what : String)
  /-- The tool set itself is at fault. -/
  | internal (what : String)
deriving DecidableEq, Repr

/-- The wording of a failed tool call. -/
def ToolError.message : ToolError → String
  | .notFound s => "Tool not found: " ++ s
  | .invalidParameters s => "Invalid parameters: " ++ s
  | .executionFailed s => "Tool execution failed: " ++ s
  | .internal s => "Internal error: " ++ s

/-! ### Calls -/

/-- A model's request to run a tool. -/
structure ToolCall where
  /-- What the result will refer to. -/
  id : String
  /-- The name of the tool. -/
  name : String
  /-- The arguments, as the model wrote them. -/
  arguments : String
deriving DecidableEq, Repr

namespace ToolCall

/-- The arguments of a call.  A blank text is the empty object, and any other must be an object. -/
def parseArguments (call : ToolCall) : Except ToolError Arguments :=
  if Text.allBlank call.arguments then .ok []
  else match Json.parse call.arguments with
    | .ok (.obj members) => .ok members
    | .ok other =>
      .error (.invalidParameters
        ("Arguments for '" ++ call.name ++ "' must be a JSON object, got: " ++ other.print))
    | .error e =>
      .error (.invalidParameters
        ("Could not interpret tool use parameters for id " ++ call.id ++ ": " ++ e.message))

/-- The arguments of a call for display, empty where they cannot be read. -/
def argumentsOrEmpty (call : ToolCall) : Arguments :=
  match call.parseArguments with
  | .ok members => members
  | .error _ => []

/-- A call as a value. -/
def toJson (call : ToolCall) : Json :=
  .object [("id", .str call.id), ("type", .str "function"),
    ("function", .object [("name", .str call.name), ("arguments", .str call.arguments)])]

/-- Read a call.  Everything but the function itself may be absent. -/
def ofJson? (v : Json) : Option ToolCall := do
  guard (v.isRecord 3)
  let id ← Json.defaulted (v.field? 0 "id") "" Json.str?
  let _ ← Json.defaulted (v.field? 1 "type") "function" Json.str?
  let function ← v.field? 2 "function"
  guard (function.isRecord 2)
  let name ← Json.defaulted (function.field? 0 "name") "" Json.str?
  let arguments ← Json.defaulted (function.field? 1 "arguments") "" Json.str?
  return ⟨id, name, arguments⟩

end ToolCall

/-! ### Calls that wait for a decision -/

/-- A call that is held back until a person approves or rejects it. -/
structure PendingCall where
  /-- The id of the call. -/
  id : String
  /-- The name of the tool. -/
  name : String
  /-- The arguments as they are shown: any value when read, an object when made from a call. -/
  arguments : Json
  /-- Whether the tool asks for confirmation. -/
  requiresConfirmation : Bool
deriving DecidableEq, Repr

namespace PendingCall

/-- How a call is shown while it waits. -/
def ofCall (call : ToolCall) : PendingCall :=
  ⟨call.id, call.name, .obj call.argumentsOrEmpty, true⟩

/-- A pending call as a value. -/
def toJson (p : PendingCall) : Json :=
  .object [("id", .str p.id), ("name", .str p.name), ("arguments", p.arguments),
    ("requires_confirmation", .bool p.requiresConfirmation)]

/-- Read a pending call. -/
def ofJson? (v : Json) : Option PendingCall := do
  guard (v.isRecord 4)
  return ⟨← Json.required (v.field? 0 "id") Json.str?,
    ← Json.required (v.field? 1 "name") Json.str?,
    ← v.field? 2 "arguments",
    ← Json.required (v.field? 3 "requires_confirmation") Json.bool?⟩

end PendingCall

end Parley.Chat
