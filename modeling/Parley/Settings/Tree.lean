import Parley.Entries
import Parley.Settings.Variable

/-!
# The tree of all settings

Defaults, a file and the environment are laid over each other in a table of tables.  Whatever comes
later wins, and tables are merged entry by entry.  All names are in lower case.
-/

namespace Parley.Settings

open Toml (Value)
open Entries (put)

/-- Named values, in ascending order of name. -/
abbrev Tree := List (String × Value)

namespace Tree

/-- The entries of the table with a name; none where there is no table. -/
def table (name : String) (t : Tree) : Tree := ((t.lookup name).getD (.table [])).entries

mutual

/-- Lay a value over the entry with a name. -/
def lay (name : String) (v : Value) (t : Tree) : Tree :=
  match v with
  | .table [] =>
    if (t.lookup (Text.lower name)).isSome then t else put (Text.lower name) (.table []) t
  | .table es => put (Text.lower name) (.table (layAll es (table (Text.lower name) t))) t
  | v => put (Text.lower name) v t

/-- Lay all entries of a table over those of another. -/
def layAll : List (String × Value) → Tree → Tree
  | [], t => t
  | (k, v) :: rest, t => layAll rest (lay k v t)

end

/-- Lay a value over what there is at a path.  Tables on the way are made. -/
def set (v : Value) : List String → Tree → Tree
  | [], t => t
  | [name], t => lay name v t
  | name :: path, t => put (Text.lower name) (.table (set v path (table (Text.lower name) t))) t

/-- Lay a file over the tree.  The names of its outermost table may be paths. -/
def setFile (entries : List (String × Value)) (t : Tree) : Tree :=
  entries.foldl (fun t (key, v) => t.set v (pathOf key)) t

/-- Lay the environment over the tree. -/
def setVariables (environment : List (String × String)) (t : Tree) : Tree :=
  environment.foldl (fun t (name, text) =>
    match segments? name with
    | some names => t.set (valueOf text) (pathOf (Text.join "." names))
    | none => t) t

end Tree

end Parley.Settings
