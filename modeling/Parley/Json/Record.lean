import Parley.Json.Basic

/-!
# Reading typed values

What a typed reader needs from a value, beyond its views.  A *record* is an object with named
fields; a list that holds the fields in their order is read as well, where missing fields at the end
count as absent.  Fields that a record does not have are ignored.  A *choice* is the name of an
alternative, or an object whose only member names the alternative and holds what comes with it.

All readers answer `none` for a value of the wrong shape.
-/

namespace Parley.Json

/-! ### Records -/

/-- Whether a value can be a record of `n` fields. -/
def isRecord (v : Json) (n : Nat) : Bool :=
  match v with
  | .obj _ => true
  | .arr items => items.length ≤ n
  | _ => false

/-- The field of a record with a name and a place. -/
def field? (v : Json) (place : Nat) (name : String) : Option Json :=
  match v with
  | .obj members => members.lookup name
  | .arr items => items[place]?
  | _ => none

/-- Read a field that must be there. -/
def required {α : Type} (field : Option Json) (read : Json → Option α) : Option α :=
  field.bind read

/-- Read a field that has a default when it is absent. -/
def defaulted {α : Type} (field : Option Json) (default : α) (read : Json → Option α) : Option α :=
  match field with
  | none => some default
  | some v => read v

/-- Read a field that may be absent or `null`. -/
def optional {α : Type} (field : Option Json) (read : Json → Option α) : Option (Option α) :=
  match field with
  | none | some .null => some none
  | some v => (read v).map some

/-! ### Lists, maps and choices -/

/-- Read a list of values of one kind. -/
def listOf? {α : Type} (read : Json → Option α) : Json → Option (List α)
  | .arr items => items.mapM read
  | _ => none

/-- Read an object whose values are of one kind. -/
def mapOf? {α : Type} (read : Json → Option α) : Json → Option (List (String × α))
  | .obj members => members.mapM fun (k, v) => (read v).map (k, ·)
  | _ => none

/-- The name of the alternative that a choice names, and what comes with it. -/
def choice? : Json → Option (String × Option Json)
  | .str s => some (s, none)
  | .obj [(k, v)] => some (k, some v)
  | _ => none

/-- The name of an alternative that nothing comes with. -/
def bareChoice? (v : Json) : Option String :=
  match v.choice? with
  | some (s, none) | some (s, some .null) => some s
  | _ => none

/-! ### Writing -/

/-- A text, or `null`. -/
def ofOption {α : Type} (write : α → Json) : Option α → Json
  | none => .null
  | some a => write a

/-- A list of texts. -/
def texts (l : List String) : Json := .arr (l.map .str)

/-- Members of an object that are there only when a value is. -/
def member? {α : Type} (name : String) (write : α → Json) : Option α → List (String × Json)
  | none => []
  | some a => [(name, write a)]

end Parley.Json
