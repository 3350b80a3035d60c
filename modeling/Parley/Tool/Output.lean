import Parley.Chat.ToolCall
import Parley.Text.Pieces

/-!
# What a tool produces

An `Output` has the shape in which it is displayed: a text, a list, named entries, or an error that
the tool reports itself.  `Output.display` is the displayed object and `Output.render` its compact
text, which becomes the body of the tool's message.

`Output.ofJson` picks the shape of an arbitrary value.
-/

namespace Parley.Tool

open Chat (Arguments)

/-- What a tool produced. -/
inductive Output where
  /-- A text. -/
  | text (text : String)
  /-- A list of values. -/
  | list (summary : String) (items : List Json)
  /-- Named values. -/
  | entries (summary : String) (members : Arguments)
  /-- A failure that the tool reports as its result. -/
  | error (text : String)
deriving DecidableEq, Repr

namespace Output

/-! ### Summaries -/

/-- The number of characters of a text's first line that its summary shows. -/
def summaryLimit : Nat := 120

/-- The first line of a text, cut where it is long. -/
def summarize (text : String) : String :=
  match Text.lines text with
  | [] => ""
  | first :: _ =>
    if summaryLimit < first.length then
      String.ofList (first.toList.take summaryLimit) ++ "…"
    else first

/-- A count of things, with an `s` for all counts but one. -/
def counted (n : Nat) (thing : String) : String :=
  toString n ++ " " ++ thing ++ (if n = 1 then "" else "s")

/-! ### Choosing a shape -/

/-- The output that shows a value.  Texts, lists and objects keep their shape, `null` is the empty
text and other values are shown as JSON.  A text member `summary` of an object becomes the summary
and leaves the entries. -/
def ofJson : Json → Output
  | .str s => .text s
  | .null => .text ""
  | .arr items => .list (counted items.length "item") items
  | .obj members =>
    match members.lookup "summary" with
    | some (.str summary) => .entries summary (Entries.erase "summary" members)
    | _ => .entries (counted members.length "field") members
  | v => .text v.print

/-! ### Display -/

/-- The displayed object of a result, or of a failure. -/
def display : Output → Json
  | .text t => shown (summarize t) "text" (.str t)
  | .list summary items => shown summary "list" (.arr items)
  | .entries summary members => shown summary "kv" (.obj members)
  | .error e => .object [("ok", .bool false), ("error", .str e)]
where
  /-- A successful result. -/
  shown (summary view : String) (data : Json) : Json :=
    .object [("ok", .bool true), ("summary", .str summary), ("view", .str view), ("data", data)]

/-- The displayed object as compact text. -/
def render (o : Output) : String := o.display.print

end Output

end Parley.Tool
