import Parley.Text.Blank
import Parley.Text.Pieces

/-!
# Places in the workspace

A `Location` is the list of names that leads from the root of the workspace to a place in it.  The
text of a path names a location by its names between slashes (`Location.ofPath?`); empty names and
single points do not count, and a path with two points as a name leads nowhere, since it might leave
the workspace.
-/

namespace Parley.Workspace

/-- The names on the way from the root to a place. -/
abbrev Location := List String

namespace Location

/-- The names in the text of a path that count. -/
def names (path : String) : List String :=
  (Text.splitOn '/' (Text.trim path)).filter fun name => !name.isEmpty && name != "."

/-- The location that the text of a path names; none when the path goes up. -/
def ofPath? (path : String) : Option Location :=
  if (names path).contains ".." then none else some (names path)

/-- The path of a location. -/
def toPath (l : Location) : String := "/" ++ Text.join "/" l

end Location

end Parley.Workspace
