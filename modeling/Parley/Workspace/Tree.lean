import Parley.Entries
import Parley.Workspace.Location

/-!
# Files and directories

A `Tree` is a file, which holds bytes, or a directory, which holds trees under different names in
ascending order.  `Tree.at?` is the view of a tree: what there is at a location.  `Tree.modify`
changes the entry at a location and nothing else, where the way to it must exist.

What the operating system refuses is a `SystemError`; `SystemError.message` words it as the system
does.
-/

namespace Parley.Workspace

/-! ### Errors -/

/-- Why the operating system refuses an operation. -/
inductive SystemError where
  | notFound
  | alreadyExists
  | notADirectory
  | isADirectory
  | invalidArgument
  | nameTooLong
  /-- A file that should be a text is none. -/
  | notText
  /-- A name has a character that no name may have. -/
  | nulInName
deriving DecidableEq, Repr

/-- The wording of an error. -/
def SystemError.message : SystemError → String
  | .notFound => "No such file or directory (os error 2)"
  | .alreadyExists => "File exists (os error 17)"
  | .notADirectory => "Not a directory (os error 20)"
  | .isADirectory => "Is a directory (os error 21)"
  | .invalidArgument => "Invalid argument (os error 22)"
  | .nameTooLong => "File name too long (os error 36)"
  | .notText => "stream did not contain valid UTF-8"
  | .nulInName => "file name contained an unexpected NUL byte"

/-! ### Trees -/

/-- A file or a directory. -/
inductive Tree where
  /-- A file with its bytes. -/
  | file (contents : ByteArray)
  /-- A directory with its entries, in ascending order of name. -/
  | dir (entries : List (String × Tree))
deriving Inhabited

namespace Tree

/-- The directory without entries. -/
def empty : Tree := .dir []

/-- Whether a tree is a directory. -/
def isDir : Tree → Bool
  | .dir _ => true
  | .file _ => false

/-- The number of bytes of a file; directories count as zero. -/
def size : Tree → Nat
  | .file contents => contents.size
  | .dir _ => 0

/-- The entries of a directory. -/
def entries : Tree → List (String × Tree)
  | .dir es => es
  | .file _ => []

/-! ### Entries -/

/-- The entry of a name set to a tree, or dropped. -/
def setEntry (name : String) (t? : Option Tree) (es : List (String × Tree)) :
    List (String × Tree) :=
  match t? with
  | some t => Entries.put name t es
  | none => Entries.erase name es

/-! ### Places -/

/-- What there is at a location. -/
def at? : Tree → Location → Option Tree
  | t, [] => some t
  | .file _, _ :: _ => none
  | .dir es, name :: rest => (es.lookup name).bind (·.at? rest)

/-- The number of bytes that a name may have. -/
def nameLimit : Nat := 255

/-- Whether a name is too long. -/
def isTooLong (name : String) : Bool := nameLimit < name.utf8ByteSize

/-- Walk to a location: every name before the last must be that of a directory. -/
def walk : Tree → Location → Except SystemError Tree
  | t, [] => .ok t
  | .file _, _ :: _ => .error .notADirectory
  | .dir es, name :: rest =>
    if isTooLong name then .error .nameTooLong
    else match es.lookup name with
      | none => .error .notFound
      | some t => t.walk rest

/-- Change the entry at a location that is not the root.  `change` is told what there is and says
what there is to be. -/
def modify (change : Option Tree → Except SystemError (Option Tree)) (t : Tree) (name : String)
    (rest : Location) : Except SystemError Tree :=
  match t, rest with
  | .file _, _ => .error .notADirectory
  | .dir es, [] =>
    if isTooLong name then .error .nameTooLong
    else do return .dir (setEntry name (← change (es.lookup name)) es)
  | .dir es, next :: rest =>
    if isTooLong name then .error .nameTooLong
    else match es.lookup name with
      | none => .error .notFound
      | some t => do return .dir (Entries.put name (← modify change t next rest) es)
termination_by rest

/-- Make the directories on the way to a location and at it that do not exist.  Those made before an
error stay. -/
def makeDirs : Tree → Location → Except SystemError Unit × Tree
  | .file c, [] => (.error .alreadyExists, .file c)
  | .file c, _ :: _ => (.error .notADirectory, .file c)
  | .dir es, [] => (.ok (), .dir es)
  | .dir es, name :: rest =>
    if isTooLong name then (.error .nameTooLong, .dir es)
    else
      let (answer, t) := makeDirs ((es.lookup name).getD .empty) rest
      (answer, .dir (Entries.put name t es))
termination_by _ l => l

end Tree

end Parley.Workspace
