import Parley.Floating.Shortest
import Parley.Json.Basic
import Parley.Text.Blank
import Parley.Text.Casing
import Parley.Text.Digits
import Parley.Text.Pieces

/-!
# Templates

A template is a list of `Node`s: texts, values to be written, and blocks that are chosen by a
condition or repeated for the elements of a value.  `Node.renderAll` renders it in a scope, the
names that values are bound to.

What a template may not do is an error: to write a name that nothing is bound to, to compute with
what is no number, to repeat for what has no elements.  A condition that is no more than such a name
is false.
-/

namespace Parley.Prompt

open Floating (Binary binary64)

/-! ### Expressions -/

/-- A comparison. -/
inductive Comparison where
  | eq
  | ne
  | lt
  | le
  | gt
  | ge
deriving DecidableEq, Repr

/-- An operation on numbers. -/
inductive Operation where
  | add
  | sub
  | mul
  | div
  | rem
deriving DecidableEq, Repr

/-- An expression. -/
inductive Expr where
  /-- A value. -/
  | literal (v : Json)
  /-- What a name is bound to. -/
  | name (name : String)
  /-- A member or an element of a value. -/
  | part (e : Expr) (key : Expr)
  /-- A list. -/
  | list (items : List Expr)
  /-- A filter with at most one argument. -/
  | filter (e : Expr) (name : String) (argument : Option Expr)
  /-- Negation. -/
  | not (e : Expr)
  /-- Conjunction. -/
  | and (a b : Expr)
  /-- Disjunction. -/
  | or (a b : Expr)
  /-- A comparison. -/
  | compare (c : Comparison) (a b : Expr)
  /-- Whether a value is inside another. -/
  | within (a b : Expr)
  /-- An operation on numbers. -/
  | compute (o : Operation) (a b : Expr)
  /-- Texts one after the other. -/
  | concat (a b : Expr)

/-- Why a template cannot be rendered. -/
inductive TemplateError where
  /-- The text is no template. -/
  | malformed
  /-- The scope is no object. -/
  | notAnObject
  /-- Nothing is bound to a name, or a value has no such part. -/
  | undefinedName (name : String)
  /-- A value is of the wrong kind for what is done with it. -/
  | wrongKind
  /-- There is no such filter. -/
  | unknownFilter (name : String)
  /-- A number is too large, or divided by zero. -/
  | outOfRange
deriving DecidableEq, Repr

/-- The names that values are bound to, the innermost first. -/
abbrev Scope := List (String × Json)

/-! ### Values -/

/-- A number in running text. -/
def numberText : Json.Number → String
  | .int i => toString i
  | .float x => String.ofList (Floating.Layout.prose.render binary64 x)

mutual

/-- A value in running text. -/
def valueText : Json → String
  | .null => ""
  | .bool b => toString b
  | .num n => numberText n
  | .str s => s
  | .arr items => "[" ++ Text.join ", " (valueTexts items) ++ "]"
  | .obj _ => "[object]"

/-- The elements of a list in running text. -/
def valueTexts : List Json → List String
  | [] => []
  | v :: rest => valueText v :: valueTexts rest

end

/-- Whether a value counts as true. -/
def isTrue : Json → Bool
  | .null => false
  | .bool b => b
  | .num (.int i) => i ≠ 0
  | .num (.float x) => x.significand ≠ 0
  | .str s => !s.isEmpty
  | .arr items => !items.isEmpty
  | .obj members => !members.isEmpty

/-- A member or an element of a value. -/
def partOf? (v : Json) : Json → Option Json
  | .str key =>
    match v with
    | .obj _ => v.get? key
    | .arr items =>
      if key = "0" || key.toList.head? ≠ some '0' then
        (Text.numeral? 10 key.toList).bind (items[·]?)
      else none
    | _ => none
  | .num (.int i) => if i < 0 then none else v.item? i.toNat
  | _ => none

/-! ### Numbers -/

/-- The quotient that a number is. -/
def quotientOf : Json.Number → Int × Nat
  | .int i => (i, 1)
  | .float x =>
    let (n, d) := x.ratio
    (if x.negative then -n else n, d)

/-- The number of a value. -/
def numberOf : Json → Except TemplateError Json.Number
  | .num n => .ok n
  | _ => .error .wrongKind

/-- The double nearest to a quotient. -/
def nearestDouble (n : Int) (d : Nat) : Except TemplateError Json :=
  match binary64.round (decide (n < 0)) n.natAbs d with
  | some x => .ok (.num (.float x))
  | none => .error .outOfRange

/-- An integer of 64 bits. -/
def wholeNumber (i : Int) : Except TemplateError Json :=
  if Word.holdsSigned 64 i then .ok (.num (.int i)) else .error .outOfRange

/-- The result of an operation.  Integers stay integers; a quotient is one where it is whole. -/
def calculate (o : Operation) (a b : Json.Number) : Except TemplateError Json :=
  let (n, d) := quotientOf a
  let (m, e) := quotientOf b
  match o, a, b with
  | .add, .int i, .int j => wholeNumber (i + j)
  | .sub, .int i, .int j => wholeNumber (i - j)
  | .mul, .int i, .int j => wholeNumber (i * j)
  | .rem, .int i, .int j => if j = 0 then .error .outOfRange else wholeNumber (i.tmod j)
  | .add, _, _ => nearestDouble (n * e + m * d) (d * e)
  | .sub, _, _ => nearestDouble (n * e - m * d) (d * e)
  | .mul, _, _ => nearestDouble (n * m) (d * e)
  | .rem, _, _ => if m = 0 then .ok (.str "NaN") else nearestDouble ((n * e).tmod (m * d)) (d * e)
  | .div, _, _ =>
    if m = 0 then .ok (.str "NaN")
    else
      let den := m.natAbs * d
      let num := n * e * m.sign
      if num % den = 0 then wholeNumber (num / den) else nearestDouble num den

/-- Whether a comparison holds.  Numbers are compared as numbers; what has an order is a number. -/
def holds (c : Comparison) (a b : Json) : Except TemplateError Bool :=
  match c, a, b with
  | .eq, .num x, .num y => .ok (sameNumber x y)
  | .ne, .num x, .num y => .ok !(sameNumber x y)
  | .eq, .num _, _ | .eq, _, .num _ | .ne, .num _, _ | .ne, _, .num _ => .ok false
  | .eq, _, _ => .ok (decide (a = b))
  | .ne, _, _ => .ok (decide (a ≠ b))
  | _, _, _ => do
    let (n, d) := quotientOf (← numberOf a)
    let (m, e) := quotientOf (← numberOf b)
    let left := n * e
    let right := m * d
    return match c with
      | .lt => decide (left < right)
      | .le => decide (left ≤ right)
      | .gt => decide (left > right)
      | _ => decide (left ≥ right)
where
  /-- Whether two numbers are the same quotient. -/
  sameNumber (x y : Json.Number) : Bool :=
    (quotientOf x).1 * (quotientOf y).2 = (quotientOf y).1 * (quotientOf x).2

/-- Whether a value is inside another: an element of a list, a part of a text, a name in an
object. -/
def isWithin (a b : Json) : Except TemplateError Bool :=
  match a, b with
  | _, .arr items => .ok (items.contains a)
  | .str s, .str t => .ok (Text.contains t s)
  | .str s, .obj members => .ok (members.lookup s).isSome
  | _, _ => .error .wrongKind

/-! ### Filters -/

/-- The value that a filter makes of another. -/
def applyFilter (name : String) (argument? : Option Json) (v : Json) : Except TemplateError Json :=
  match name, v with
  | "length", .arr items => .ok (.nat items.length)
  | "length", .obj members => .ok (.nat members.length)
  | "length", .str s => .ok (.nat s.length)
  | "upper", .str s => .ok (.str (Text.upper s))
  | "lower", .str s => .ok (.str (Text.lower s))
  | "trim", .str s => .ok (.str (Text.trim s))
  | "first", .arr items => .ok (items.head?.getD (.str ""))
  | "last", .arr items => .ok (items.getLast?.getD (.str ""))
  | "reverse", .arr items => .ok (.arr items.reverse)
  | "reverse", .str s => .ok (.str (String.ofList s.toList.reverse))
  | "join", .arr items =>
    match argument? with
    | none => .ok (.str (Text.join "" (valueTexts items)))
    | some (.str separator) => .ok (.str (Text.join separator (valueTexts items)))
    | some _ => .error .wrongKind
  | "default", v => .ok v
  | _, _ =>
    if ["length", "upper", "lower", "trim", "first", "last", "reverse", "join"].contains name then
      .error .wrongKind
    else .error (.unknownFilter name)

/-! ### Evaluation -/

namespace Expr

/-- Whether an expression counts as false where it has no value. -/
def isPlain : Expr → Bool
  | .name _ | .part .. | .filter .. => true
  | _ => false

/-- What an expression with an outcome says as a condition. -/
def verdict (e : Expr) (outcome : Except TemplateError Json) : Except TemplateError Bool :=
  match outcome with
  | .ok v => .ok (isTrue v)
  | .error err => if e.isPlain then .ok false else .error err

mutual

/-- The value of an expression. -/
def eval (s : Scope) : Expr → Except TemplateError Json
  | .literal v => .ok v
  | .name n =>
    match s.lookup n with
    | some v => .ok v
    | none => .error (.undefinedName n)
  | .part e key => do
    let v ← eval s e
    let k ← eval s key
    match partOf? v k with
    | some v => .ok v
    | none => .error (.undefinedName (valueText k))
  | .list items => do return .arr (← evalAll s items)
  | .filter e filterName argument => do
    let argument? ← evalArgument s argument
    match eval s e, filterName, argument? with
    | .ok .null, "default", some v => .ok v
    | .ok v, _, _ => applyFilter filterName argument? v
    | .error _, "default", some v => .ok v
    | .error err, _, _ => .error err
  | .not e => do return .bool !(← verdict e (eval s e))
  | .and a b => do
    if ← verdict a (eval s a) then return .bool (← verdict b (eval s b)) else return .bool false
  | .or a b => do
    if ← verdict a (eval s a) then return .bool true else return .bool (← verdict b (eval s b))
  | .compare c a b => do return .bool (← holds c (← eval s a) (← eval s b))
  | .within a b => do return .bool (← isWithin (← eval s a) (← eval s b))
  | .compute o a b => do calculate o (← numberOf (← eval s a)) (← numberOf (← eval s b))
  | .concat a b => do return .str (valueText (← eval s a) ++ valueText (← eval s b))

/-- The value of an argument, if there is one. -/
def evalArgument (s : Scope) : Option Expr → Except TemplateError (Option Json)
  | none => .ok none
  | some e => do return some (← eval s e)

/-- The values of expressions. -/
def evalAll (s : Scope) : List Expr → Except TemplateError (List Json)
  | [] => .ok []
  | e :: rest => do return (← eval s e) :: (← evalAll s rest)

end

end Expr

/-! ### Rendering -/

/-- A part of a template. -/
inductive Node where
  /-- A text. -/
  | text (text : String)
  /-- The value of an expression. -/
  | output (e : Expr)
  /-- One of two blocks. -/
  | branch (condition : Expr) (yes no : List Node)
  /-- A block for every element of a value, or another where there are none. -/
  | each (key? : Option String) (value : String) (container : Expr) (body otherwise : List Node)

/-- What a block is repeated for: the bindings of every round. -/
def rounds (key? : Option String) (value : String) : Json → Except TemplateError (List Scope)
  | .arr items => if key?.isSome then .error .wrongKind else .ok (items.map fun v => [(value, v)])
  | .str s =>
    if key?.isSome then .error .wrongKind
    else .ok (s.toList.map fun c => [(value, .str (String.singleton c))])
  | .obj members =>
    match key? with
    | some key => .ok (members.map fun (k, v) => [(key, .str k), (value, v)])
    | none => .error .wrongKind
  | _ => .error .wrongKind

/-- What a block knows about its round. -/
def roundInfo (count i : Nat) : Json :=
  .object [("index", .nat (i + 1)), ("index0", .nat i), ("first", .bool (i == 0)),
    ("last", .bool (i + 1 == count))]

namespace Node

mutual

/-- A node as text. -/
def render (s : Scope) : Node → Except TemplateError String
  | .text t => .ok t
  | .output e => do return valueText (← e.eval s)
  | .branch condition yes no => do
    if ← condition.verdict (condition.eval s) then renderAll s yes else renderAll s no
  | .each key? value container body otherwise => do
    let bindings ← rounds key? value (← container.eval s)
    if bindings.isEmpty then renderAll s otherwise
    else
      let texts ← bindings.zipIdx.mapM fun (binding, i) =>
        renderAll (binding ++ ("loop", roundInfo bindings.length i) :: s) body
      return String.join texts

/-- A template as text. -/
def renderAll (s : Scope) : List Node → Except TemplateError String
  | [] => .ok ""
  | n :: rest => do return (← render s n) ++ (← renderAll s rest)

end

end Node

end Parley.Prompt
