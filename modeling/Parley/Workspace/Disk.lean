import Parley.Workspace.Tree

/-!
# What the disk does with the workspace

These are the operations of a file system on a disk on which the workspace stands: each takes a
location of the workspace and either succeeds or is refused with the reason that the system gives.
A location whose path is too long as a whole, or that has the character NUL in a name, is refused
before anything else.

A `Mount` says where the workspace is on the disk and which of its locations the system takes.  It
comes last, and where it is left out the workspace is a disk of its own (`Mount.whole`).
-/

namespace Parley.Workspace

namespace Disk

/-! ### Paths that the system takes -/

/-- The number of bytes that a path may have. -/
def pathLimit : Nat := 4095

/-- The number of bytes that the path of the root leaves for that of a location, which is put behind
it with a slash in between. -/
def limitBelow (root : String) : Nat := pathLimit - (root.utf8ByteSize + 1)

/-- Whether the character NUL stands in a name of a location. -/
def hasNul (l : Location) : Bool := l.any fun name => name.toList.contains '\x00'

/-- Whether the path of a location is too long as a whole. -/
def isTooLong (limit : Nat) (l : Location) : Bool := limit < (Text.join "/" l).utf8ByteSize

/-- Whether the system takes the paths of the locations that an operation works on. -/
def admits (limit : Nat) (ls : List Location) : Except SystemError Unit :=
  if ls.any hasNul then .error .nulInName
  else if ls.any (isTooLong limit) then .error .nameTooLong
  else .ok ()

end Disk

/-- Where a workspace is on a disk, and which of its locations the system takes. -/
structure Mount where
  /-- The place of a location. -/
  place : Location → Location
  /-- Whether the system takes the paths of locations. -/
  admits : List Location → Except SystemError Unit

namespace Mount

/-- The workspace is the whole disk.  If no limit is given, its root has a path like that of a
temporary directory. -/
def whole (limit : Nat := Disk.limitBelow "/tmp/.tmpXXXXXX") : Mount := ⟨id, Disk.admits limit⟩

/-- Whether the system takes the path of a location. -/
def takes (m : Mount) (l : Location) : Bool := (m.admits [l]).isOk

end Mount

namespace Disk

/-! ### Operations -/

/-- What there is at a location. -/
def inspect (t : Tree) (l : Location) (m : Mount := .whole) : Except SystemError Tree := do
  m.admits [l]
  t.walk (m.place l)

/-- The entries of a directory. -/
def list (t : Tree) (l : Location) (m : Mount := .whole) :
    Except SystemError (List (String × Tree)) := do
  match ← inspect t l m with
  | .dir es => return es
  | .file _ => .error .notADirectory

/-- Make the directories on the way to a location and at it. -/
def makeDirs (t : Tree) (l : Location) (m : Mount := .whole) : Except SystemError Unit × Tree :=
  match m.admits [l] with
  | .error e => (.error e, t)
  | .ok () => t.makeDirs (m.place l)

/-- Change the entry at a location.  There is no entry for the root of the disk, which is a
directory. -/
def modify (change : Option Tree → Except SystemError (Option Tree)) (t : Tree) (l : Location)
    (m : Mount := .whole) : Except SystemError Tree :=
  match m.place l with
  | [] => .error .isADirectory
  | name :: rest => do
    m.admits [l]
    t.modify change name rest

/-- Write a file, which may exist. -/
def write (contents : ByteArray) (t : Tree) (l : Location) (m : Mount := .whole) :
    Except SystemError Tree :=
  modify (fun
    | some (.dir _) => .error .isADirectory
    | _ => .ok (some (.file contents))) t l m

/-- Remove what is at a location. -/
def remove (t : Tree) (l : Location) (m : Mount := .whole) : Except SystemError Tree :=
  modify (fun
    | some _ => .ok none
    | none => .error .notFound) t l m

/-- Walk to the directory that a location is in. -/
def walkToParent (t : Tree) (l : Location) (m : Mount := .whole) : Except SystemError Unit := do
  match ← t.walk (m.place l).dropLast with
  | .dir _ => return ()
  | .file _ => .error .notADirectory

/-- Rename what is at one location to another one, where nothing is.  A directory cannot be moved
into itself. -/
def rename (t : Tree) (source target : Location) (m : Mount := .whole) :
    Except SystemError Tree := do
  m.admits [source, target]
  walkToParent t source m
  walkToParent t target m
  let moved ← t.walk (m.place source)
  if ((m.place target).getLast?.map Tree.isTooLong).getD false then .error .nameTooLong
  else if (m.place source).isPrefixOf (m.place target) then .error .invalidArgument
  else
    let t ← remove t source m
    modify (fun
      | some _ => .error .alreadyExists
      | none => .ok (some moved)) t target m

end Disk

end Parley.Workspace
