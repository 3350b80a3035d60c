import Parley.Chat.ToolCall
import Parley.Workspace.Disk

/-!
# The file store

The operations that tools have on the workspace, but for the search.  All paths are virtual: they
begin at the root of the workspace, and a path that might leave it is refused (`resolve`).  An
operation answers with its result or with a `ToolError` that quotes the path as it was given.

A failed write or move may leave directories behind that it made on the way to its target.
-/

namespace Parley.Workspace

open Chat (ToolError)

/-- The number of bytes of the largest file that is read. -/
def readLimit : Nat := 1024 * 1024

/-- The location that a path names. -/
def resolve (path : String) : Except ToolError Location :=
  match Location.ofPath? path with
  | some l => .ok l
  | none => .error (.invalidParameters ("Path '" ++ path ++ "' escapes the workspace"))

/-- A refusal of the system as the failure of a tool. -/
def refused {α : Type} (path : String) : Except SystemError α → Except ToolError α
  | .ok a => .ok a
  | .error e => .error (.executionFailed (path ++ ": " ++ e.message))

/-! ### Reading -/

/-- An entry of a directory as it is listed. -/
structure Entry where
  /-- Its name. -/
  name : String
  /-- Its path. -/
  path : String
  /-- Whether it is a directory. -/
  isDir : Bool
  /-- The number of bytes of a file. -/
  size : Nat
deriving DecidableEq, Repr

/-- An entry as a value. -/
def Entry.toJson (e : Entry) : Json :=
  .object [("name", .str e.name), ("path", .str e.path), ("is_dir", .bool e.isDir),
    ("size", .nat e.size)]

/-- The entries of a directory at a location, directories first. -/
def listing (l : Location) (es : List (String × Tree)) : List Entry :=
  let all :=
    es.map fun (name, t) => (⟨name, Location.toPath (l ++ [name]), t.isDir, t.size⟩ : Entry)
  all.filter (·.isDir) ++ all.filter (!·.isDir)

/-- List a directory. -/
def listEntries (t : Tree) (path : String) (m : Mount := .whole) :
    Except ToolError (List Entry) := do
  let l ← resolve path
  return listing l (← refused path (Disk.list t l m))

/-- Read a text file. -/
def readText (t : Tree) (path : String) (m : Mount := .whole) : Except ToolError String := do
  let l ← resolve path
  match ← refused path (Disk.inspect t l m) with
  | .dir _ => .error (.invalidParameters ("'" ++ path ++ "' is a directory"))
  | .file contents =>
    if readLimit < contents.size then
      .error (.executionFailed
        ("'" ++ path ++ "' is too large to read (" ++ toString contents.size ++ " bytes)"))
    else match String.fromUTF8? contents with
      | some s => .ok s
      | none => refused path (.error .notText)

/-! ### Writing -/

/-- The answer to a change, and the disk after it. -/
def settled {ε : Type} (t : Tree) : Except ε Tree → Except ε Unit × Tree
  | .ok t' => (.ok (), t')
  | .error e => (.error e, t)

/-- The directories on the way to a location, and then a step that needs them.  Directories stay
when the step fails. -/
def withParents (path : String) (t : Tree) (l : Location) (step : Tree → Except ToolError Tree)
    (m : Mount := .whole) : Except ToolError Unit × Tree :=
  match Disk.makeDirs t l.dropLast m with
  | (.error e, t) => (refused path (.error e), t)
  | (.ok (), t) => settled t (step t)

/-- Write a text file, which may exist, and the directories on the way to it. -/
def writeText (t : Tree) (path text : String) (m : Mount := .whole) :
    Except ToolError Unit × Tree :=
  match resolve path with
  | .error e => (.error e, t)
  | .ok [] => (.error (.invalidParameters "A file path is required"), t)
  | .ok l => withParents path t l (fun t => refused path (Disk.write text.toUTF8 t l m)) m

/-- Move a file or a directory to a path where nothing is. -/
def movePath (t : Tree) (source target : String) (m : Mount := .whole) :
    Except ToolError Unit × Tree :=
  match resolve source, resolve target with
  | .error e, _ => (.error e, t)
  | .ok _, .error e => (.error e, t)
  | .ok s, .ok d =>
    if s.isEmpty || d.isEmpty then
      (.error (.invalidParameters "The workspace root cannot be moved"), t)
    else if (Disk.inspect t d m).toOption.isSome then
      (.error (.executionFailed ("'" ++ target ++ "' already exists")), t)
    else withParents target t d (fun t => refused source (Disk.rename t s d m)) m

/-- Delete a file or a directory with all that is in it. -/
def delete (t : Tree) (path : String) (m : Mount := .whole) : Except ToolError Unit × Tree :=
  match resolve path with
  | .error e => (.error e, t)
  | .ok [] => (.error (.invalidParameters "The workspace root cannot be deleted"), t)
  | .ok l => settled t (refused path (Disk.remove t l m))

end Parley.Workspace
