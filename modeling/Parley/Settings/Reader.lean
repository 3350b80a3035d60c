import Parley.Text.Casing
import Parley.Toml.Value
import Parley.Word

/-!
# Reading settings

A setting is read in the type that it must have.  A truth value, a number and a text stand for each
other where that makes sense: `true` is the number 1, a number is its own text, and a float is
rounded to an integer.  A record is a table, or a list of its fields in their order.

A reader fails with a `Fault`: a field is missing, or a value cannot be what it must be.
-/

namespace Parley.Settings

open Floating (Double Single)
open Toml (Value)

/-- Why settings cannot be read. -/
inductive Fault where
  /-- A table has no such field. -/
  | missing (field : String)
  /-- A value is not what it must be. -/
  | mismatch
deriving DecidableEq, Repr

/-! ### Single values -/

/-- A text. -/
def text : Value → Except Fault String
  | .text s => .ok s
  | .bool b => .ok (if b then "true" else "false")
  | .int i => .ok (toString i)
  | .float x => .ok x.text
  | .list _ | .table _ => .error .mismatch

/-- The truth value that a word stands for. -/
def truth? (s : String) : Option Bool :=
  let word := Text.lower s
  if ["true", "on", "yes"].contains word then some true
  else if ["false", "off", "no"].contains word then some false
  else none

/-- A number of 64 bits in digits, which may have a plus sign. -/
def word? (s : String) : Option Nat :=
  let digits := match s.toList with
    | '+' :: rest => rest
    | cs => cs
  (Text.numeral? 10 digits).filter (Word.holds 64)

/-- A natural number of 64 bits. -/
def word : Value → Except Fault Nat
  | .int i => if 0 ≤ i then .ok i.toNat else .error .mismatch
  | .bool b => .ok b.toNat
  | .float x => .ok x.toWord
  | .text s =>
    match truth? s with
    | some b => .ok b.toNat
    | none =>
      match word? s with
      | some n => .ok n
      | none => .error .mismatch
  | .list _ | .table _ => .error .mismatch

/-- A natural number of so many bits. -/
def natural (bits : Nat) (v : Value) : Except Fault Nat := do
  let n ← word v
  if Word.holds bits n then return n else throw .mismatch

/-- A number in single precision. -/
def single : Value → Except Fault Single
  | .float x => .ok x.toSingle
  | .int i => .ok (Double.ofInt i).toSingle
  | .bool b => .ok (Double.ofInt b.toNat).toSingle
  | .text s =>
    match truth? s with
    | some b => .ok (Double.ofInt b.toNat).toSingle
    | none =>
      match Double.ofText? s.toList with
      | some x => .ok x.toSingle
      | none => .error .mismatch
  | .list _ | .table _ => .error .mismatch

/-! ### Records and maps -/

/-- The field of a record with a name and a place. -/
def field? (v : Value) (place : Nat) (name : String) : Except Fault (Option Value) :=
  match v with
  | .table es => .ok (es.lookup name)
  | .list items => .ok items[place]?
  | _ => .error .mismatch

/-- Read a field of a record that may be absent. -/
def optional {α : Type} (v : Value) (place : Nat) (name : String) (read : Value → Except Fault α) :
    Except Fault (Option α) := do
  match ← field? v place name with
  | none => return none
  | some w => return some (← read w)

/-- A field that must be there.  A table tells the name of the one that is missing. -/
def required {α : Type} (v : Value) (name : String) : Option α → Except Fault α
  | some a => .ok a
  | none =>
    match v with
    | .table _ => .error (.missing name)
    | _ => .error .mismatch

/-- Read a table whose entries are of one kind. -/
def map {α : Type} (read : Value → Except Fault α) : Value → Except Fault (List (String × α))
  | .table es => es.mapM fun (k, v) => (read v).map (k, ·)
  | _ => .error .mismatch

end Parley.Settings
