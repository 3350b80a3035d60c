import Parley.Entries
import Parley.Toml.Value

/-!
# Tables under construction

A document adds to its tables from many places, and the format limits from where.  So a `Draft`
remembers how each of its tables came to be: named by a header, implied by the header of a table
inside it, or made by a dotted key.  A table is named once; dotted keys only add to tables that
dotted keys made.

All additions answer `none` where the format forbids them.
-/

namespace Parley.Toml

open Entries (put)

/-- How a table came to be. -/
inductive Origin where
  /-- A header names it. -/
  | named
  /-- A header names a table inside it. -/
  | implied
  /-- A dotted key goes through it. -/
  | dotted
deriving DecidableEq, Repr

/-- A value under construction. -/
inductive Draft where
  /-- A value that nothing can be added to. -/
  | value (v : Value)
  /-- A table. -/
  | table (origin : Origin) (entries : List (String × Draft))
  /-- A list of tables, of which the last can be added to. -/
  | tables (elements : List (List (String × Draft)))

/-- Entries of a table under construction. -/
abbrev Entries := List (String × Draft)

namespace Draft

/-! ### Additions -/

/-- Change the table at a path.  Tables on the way that do not exist are made, as those of a dotted
key or those that a header implies. -/
def update (dotted : Bool) (change : Origin → Entries → Option Entries) :
    List String → Origin → Entries → Option Entries
  | [], origin, es => change origin es
  | k :: path, _, es =>
    match es.lookup k with
    | none => do
      let origin := if dotted then .dotted else .implied
      let inner ← update dotted change path origin []
      return put k (.table origin inner) es
    | some (.value _) => none
    | some (.table origin inner) =>
      if dotted ∧ origin = .named then none
      else do
        let inner ← update dotted change path origin inner
        return put k (.table origin inner) es
    | some (.tables elements) => do
      let last ← update dotted change path .named (← elements.getLast?)
      return put k (.tables (elements.dropLast ++ [last])) es

/-- Add a value under a key, whose last part is `name`, to the table at hand. -/
def addValue (path : List String) (name : String) (v : Value) (es : Entries) : Option Entries :=
  update true (fun origin es =>
    if (origin = .dotted ↔ path ≠ []) ∧ (es.lookup name).isNone then some (put name (.value v) es)
    else none) path .named es

/-- Name a table. -/
def addTable (name : String) (es : Entries) : Option Entries :=
  match es.lookup name with
  | none => some (put name (.table .named []) es)
  | some (.table .implied inner) => some (put name (.table .named inner) es)
  | some _ => none

/-- Add a table to a list of tables. -/
def addElement (name : String) (es : Entries) : Option Entries :=
  match es.lookup name with
  | none => some (put name (.tables [[]]) es)
  | some (.tables elements) => some (put name (.tables (elements ++ [[]])) es)
  | some _ => none

/-! ### The finished value -/

mutual

/-- The value that a draft has become. -/
def finish : Draft → Value
  | .value v => v
  | .table _ es => .table (finishEntries es)
  | .tables elements => .list (finishElements elements)

/-- The entries that a table has in the end. -/
def finishEntries : Entries → List (String × Value)
  | [] => []
  | (k, d) :: rest => (k, finish d) :: finishEntries rest

/-- The tables that a list has in the end. -/
def finishElements : List Entries → List Value
  | [] => []
  | es :: rest => .table (finishEntries es) :: finishElements rest

end

end Draft

end Parley.Toml
