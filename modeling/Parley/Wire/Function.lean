import Parley.Chat.ToolCall
import Parley.Tool.Name
import Parley.Wire.Error

/-!
# Functions on the wire

The description of tools that the OpenAI and Ollama formats share: each tool is a function under its
sanitized name.  Two tools must not become the same function (`functions`).
-/

namespace Parley.Wire

open Chat (ToolSchema)
open Tool (sanitizeName)

/-- A tool as a function. -/
def functionSpec (t : ToolSchema) : Json :=
  .object [("type", .str "function"),
    ("function", .object [("name", .str (sanitizeName t.name)), ("description", .str t.description),
      ("parameters", t.parameters)])]

/-- The functions of a list of tools, where `seen` are the function names that came before.  The
first tool whose function name has been seen is refused. -/
def functionsAfter (seen : List String) : List ToolSchema → Except Failure (List Json)
  | [] => .ok []
  | t :: rest =>
    let name := sanitizeName t.name
    if seen.contains name then .error (.invalidRequest ("Duplicate tool name: " ++ t.name))
    else (functionsAfter (name :: seen) rest).map (functionSpec t :: ·)

/-- The functions of a list of tools, in order. -/
def functions (tools : List ToolSchema) : Except Failure (List Json) := functionsAfter [] tools

end Parley.Wire
