import Parley.Floating.Double

/-!
# TOML values

The values of a TOML document.  A date or a time is kept as a text in its normal form.
-/

namespace Parley.Toml

open Floating (Double)

/-- A value. -/
inductive Value where
  /-- A truth value. -/
  | bool (b : Bool)
  /-- An integer. -/
  | int (i : Int)
  /-- A float. -/
  | float (x : Double)
  /-- A text, a date or a time. -/
  | text (s : String)
  /-- A list of values. -/
  | list (items : List Value)
  /-- Named values. -/
  | table (entries : List (String × Value))
deriving Repr, Inhabited

/-- The entries of a table; none for any other value. -/
def Value.entries : Value → List (String × Value)
  | .table es => es
  | _ => []

end Parley.Toml
