import Parley.Floating.Shortest
import Parley.Json.Printer

/-!
# Numbers in single precision

Embeddings, scores and temperatures are kept in single precision.  `Single.ofNumber` rounds a JSON
number, by way of double precision; what lies beyond the range becomes infinite.  `Single.toJson`
widens the value again, which is exact, and a value that is not finite becomes `null`.
-/

namespace Parley.Floating

/-- A number in single precision. -/
inductive Single where
  /-- A finite value. -/
  | finite (x : Binary)
  /-- A value beyond the range, with its sign. -/
  | infinite (negative : Bool)
  /-- No number. -/
  | nan
deriving DecidableEq, Repr

namespace Single

/-- Round a double. -/
def ofDouble (x : Binary) : Single :=
  match binary32.convert x with
  | some y => .finite y
  | none => .infinite x.negative

/-- Round a JSON number, which is rounded to a double first. -/
def ofNumber : Json.Number → Single
  | .float x => ofDouble x
  | .int i =>
    match binary64.ofInt i with
    | some x => ofDouble x
    | none => .infinite (decide (i < 0))

/-- Zero. -/
def zero : Single := .finite (binary32.zero false)

/-- The value as a double. -/
def toJson : Single → Json
  | .finite x =>
    match binary64.convert x with
    | some y => .num (.float y)
    | none => .null
  | .infinite _ | .nan => .null

/-- The value of a JSON number; none for any other value. -/
def ofJson? : Json → Option Single
  | .num n => some (ofNumber n)
  | _ => none

/-- The numbers of a list; whatever is not a number is skipped. -/
def listOfJson (v : Json) : List Single := (v.items?.getD []).filterMap ofJson?

/-- The compact text of the value with the shortest digits that read back in single precision. -/
def chars : Single → List Char
  | .finite x => Json.floatLayout.render binary32 x
  | .infinite _ | .nan => ['n', 'u', 'l', 'l']

/-- The double that the shortest text of the value reads as. -/
def toShortJson : Single → Json
  | .finite x =>
    if x.significand = 0 then .num (.float (binary64.zero x.negative))
    else
      let d := shortest binary32 x
      match binary64.ofDecimal x.negative d.digits d.exponent with
      | some y => .num (.float y)
      | none => .null
  | .infinite _ | .nan => .null

end Single

end Parley.Floating
