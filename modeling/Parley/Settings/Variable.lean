import Parley.Text.Casing
import Parley.Text.Pieces
import Parley.Toml.Value
import Parley.Word

/-!
# Names of settings

A setting has a *path* of names, which is written with points between them.  In the environment it
is a variable: the names in upper case with two underscores between them, behind a fixed beginning
(`variableOf`).  `segments?` reads the names off a variable, in lower case.
-/

namespace Parley.Settings

open Toml (Value)

/-! ### Paths -/

/-- Whether a character may stand in a name of a path. -/
def isNameChar (c : Char) : Bool := c.isAlphanum || c = ' ' || c = '_' || c = '-'

/-- The names of a path.  A text that is no path is a name as a whole. -/
def pathOf (key : String) : List String :=
  let names := Text.splitOn '.' key
  if names.all fun n => !n.isEmpty && n.toList.all isNameChar then names else [key]

/-! ### Variables -/

/-- The beginning of all variables. -/
def marker : String := "CONDUIT_"

/-- The variable that sets a path. -/
def variableOf (path : String) : String :=
  marker ++ Text.join "__" ((Text.splitOn '.' path).map Text.upper)

/-- The pieces of a text between two underscores each. -/
def pieces : List Char → List (List Char)
  | [] => [[]]
  | '_' :: '_' :: rest => [] :: pieces rest
  | c :: rest =>
    match pieces rest with
    | [] => [[c]]
    | p :: ps => (c :: p) :: ps

/-- The names that a variable spells; none when it sets nothing. -/
def segments? (name : String) : Option (List String) :=
  (Text.after? (Text.lower marker) (Text.lower name)).map fun rest =>
    (pieces rest.toList).map String.ofList

/-- The value that the text of a variable stands for: a truth value, an integer or a float if it can
be read as one. -/
def valueOf (text : String) : Value :=
  let word := Text.lower text
  if word = "true" then .bool true
  else if word = "false" then .bool false
  else match (Text.integer? text.toList).filter (Word.holdsSigned 64) with
    | some i => .int i
    | none =>
      match Floating.Double.ofText? text.toList with
      | some x => .float x
      | none => .text text

end Parley.Settings
