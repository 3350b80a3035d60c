import Parley.Tool.Registry
import Parley.Workspace.Search

/-!
# The tools of the workspace

Six tools work on the files of the workspace.  Those that only look at it run without further ado;
those that change it (`write`, `move` and `delete`) have to be confirmed by a person.
-/

namespace Parley.Workspace

open Chat (Arguments ToolError ToolSchema)
open Tool (Output)

/-! ### Arguments -/

/-- A text argument that must be there. -/
def requiredText (arguments : Arguments) (name : String) : Except ToolError String :=
  match (arguments.lookup name).bind Json.str? with
  | some s => .ok s
  | none => .error (.invalidParameters ("Missing '" ++ name ++ "' parameter"))

/-- A text argument that has a default. -/
def optionalText (arguments : Arguments) (name default : String) : String :=
  ((arguments.lookup name).bind Json.str?).getD default

/-- The schema of arguments that are texts. -/
def textParameters (required : List String) (properties : List (String × String)) : Json :=
  .object [("type", .str "object"), ("required", Json.texts required),
    ("properties", .object (properties.map fun (name, description) =>
      (name, .object [("type", .str "string"), ("description", .str description)])))]

/-! ### Handlers -/

/-- A tool that looks at the workspace. -/
def looking (schema : ToolSchema) (look : Arguments → Tree → Except ToolError Output) :
    Tool Tree where
  schema
  handler arguments t := (look arguments t, t)

/-- A tool that changes the workspace.  `change` gives the change and what is reported of it. -/
def changing (schema : ToolSchema)
    (change : Arguments → Except ToolError ((Tree → Except ToolError Unit × Tree) × Output)) :
    Tool Tree where
  schema
  requiresConfirmation := true
  handler arguments t :=
    match change arguments with
    | .error e => (.error e, t)
    | .ok (step, report) =>
      let (answer, t) := step t
      (answer.map fun _ => report, t)

/-- A report of texts and numbers under a summary. -/
def report (summary : String) (members : List (String × Json)) : Output :=
  .entries summary (Entries.ofList members)

/-! ### The tools -/

section

variable (m : Mount)

/-- List a directory. -/
def listTool : Tool Tree :=
  looking
    ⟨"vfs_list_dir", "List the files and folders in a workspace directory.",
      textParameters [] [("path", "Directory to list, e.g. /docs. Defaults to the root.")]⟩
    fun arguments t => do
      let path := optionalText arguments "path" "/"
      let entries ← listEntries t path m
      return .list (toString entries.length ++ " entries in " ++ path) (entries.map Entry.toJson)

/-- Read a text file. -/
def readTool : Tool Tree :=
  looking
    ⟨"vfs_read_file", "Read a text file from the workspace.",
      textParameters ["path"] [("path", "File to read, e.g. /docs/readme.md")]⟩
    fun arguments t => do
      let path ← requiredText arguments "path"
      return .text (← readText t path m)

/-- Search text files. -/
def searchTool : Tool Tree :=
  looking
    ⟨"vfs_search", "Search workspace text files for lines containing a phrase (case-insensitive).",
      textParameters ["query"] [("query", "Text to look for."),
        ("path", "Directory to search in. Defaults to the root.")]⟩
    fun arguments t => do
      let query ← requiredText arguments "query"
      let hits ← search t query (optionalText arguments "path" "/") m
      return .list (toString hits.length ++ " matches for '" ++ query ++ "'") (hits.map Hit.toJson)

/-- Write a text file. -/
def writeTool : Tool Tree :=
  changing
    ⟨"vfs_write_file", "Create or overwrite a text file in the workspace.",
      textParameters ["path", "content"] [("path", "File to write."),
        ("content", "The full new contents.")]⟩
    fun arguments => do
      let path ← requiredText arguments "path"
      let content ← requiredText arguments "content"
      return (fun t => writeText t path content m,
        report ("Wrote " ++ path) [("path", .str path), ("bytes", .nat content.utf8ByteSize)])

/-- Move a file or a directory. -/
def moveTool : Tool Tree :=
  changing
    ⟨"vfs_move", "Move or rename a file or directory in the workspace.",
      textParameters ["from", "to"] [("from", "Current path."),
        ("to", "New path. Must not exist yet.")]⟩
    fun arguments => do
      let source ← requiredText arguments "from"
      let target ← requiredText arguments "to"
      return (fun t => movePath t source target m,
        report ("Moved " ++ source ++ " to " ++ target) [("from", .str source),
          ("to", .str target)])

/-- Delete a file or a directory. -/
def deleteTool : Tool Tree :=
  changing
    ⟨"vfs_delete", "Delete a file or directory (recursively) from the workspace.",
      textParameters ["path"] [("path", "Path to delete.")]⟩
    fun arguments => do
      let path ← requiredText arguments "path"
      return (fun t => delete t path m, report ("Deleted " ++ path) [("path", .str path)])

end

/-- All tools of the workspace. -/
def tools (m : Mount := .whole) : List (Tool Tree) :=
  [listTool m, readTool m, searchTool m, writeTool m, moveTool m, deleteTool m]

end Parley.Workspace
