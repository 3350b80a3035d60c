import Parley.Prompt.Template.Basic
import Parley.Prompt.Template.Token

/-!
# Reading templates

Expressions are read by how tightly their operators bind (`Expr.read`): loosest are `or` and `and`,
then comparisons, then the joining of texts, filters, sums and products.  Blocks are read by a
machine that keeps the blocks that are open (`Open`): a tag opens one, continues the innermost or
closes it.

`loadPrompt` reads a template and renders it with the members of an object as its scope.
-/

namespace Parley.Prompt

/-! ### Expressions -/

/-- The comparison of a mark. -/
def comparisonOf? : String → Option Comparison
  | "==" => some .eq
  | "!=" => some .ne
  | "<" => some .lt
  | "<=" => some .le
  | ">" => some .gt
  | ">=" => some .ge
  | _ => none

/-- The operation of a mark, and how tightly it binds. -/
def operationOf? : String → Option (Operation × Nat)
  | "+" => some (.add, 6)
  | "-" => some (.sub, 6)
  | "*" => some (.mul, 7)
  | "/" => some (.div, 7)
  | "%" => some (.rem, 7)
  | _ => none

/-- An operator between two sides: how tightly it binds, and what it makes of its sides. -/
structure Operator where
  /-- The binding strength. -/
  strength : Nat
  /-- The expression. -/
  build : Expr → Expr → Expr

/-- The operator at the beginning of tokens, and what follows it. -/
def operator? : List Token → Option (Operator × List Token)
  | .name "or" :: rest => some (⟨1, .or⟩, rest)
  | .name "and" :: rest => some (⟨2, .and⟩, rest)
  | .name "not" :: .name "in" :: rest => some (⟨3, fun a b => .not (.within a b)⟩, rest)
  | .name "in" :: rest => some (⟨3, .within⟩, rest)
  | .mark "~" :: rest => some (⟨4, .concat⟩, rest)
  | .mark m :: rest =>
    match comparisonOf? m, operationOf? m with
    | some c, _ => some (⟨3, .compare c⟩, rest)
    | none, some (o, strength) => some (⟨strength, .compute o⟩, rest)
    | none, none => none
  | _ => none

/-- The names that stand for truth values. -/
def truthOf? : String → Option Bool
  | "true" | "True" => some true
  | "false" | "False" => some false
  | _ => none

/-- A number with a minus sign. -/
def negated : Json.Number → Json.Number
  | .int i => .int (-i)
  | .float x => .float { x with negative := !x.negative }

namespace Expr

mutual

/-- Read an expression whose operators bind at least as tightly as `least`. -/
def read : Nat → Nat → List Token → Option (Expr × List Token)
  | 0, _, _ => none
  | fuel + 1, least, ts => do
    let (e, ts) ← readFirst fuel ts
    readRest fuel least e ts

/-- Read what follows an expression and belongs to it. -/
def readRest : Nat → Nat → Expr → List Token → Option (Expr × List Token)
  | 0, _, _, _ => none
  | fuel + 1, least, e, ts =>
    match ts with
    | .member key :: rest => readRest fuel least (.part e (.literal (.str key))) rest
    | .mark "[" :: rest => do
      let (key, rest) ← read fuel 8 rest
      match rest with
      | .mark "]" :: rest => readRest fuel least (.part e key) rest
      | _ => none
    | .mark "|" :: .name f :: rest =>
      if least ≤ 5 then do
        let (argument, rest) ← readArgument fuel rest
        readRest fuel least (.filter e f argument) rest
      else some (e, ts)
    | _ =>
      match operator? ts with
      | some (o, rest) =>
        if least ≤ o.strength then do
          let (right, rest) ← read fuel (o.strength + 1) rest
          readRest fuel least (o.build e right) rest
        else some (e, ts)
      | none => some (e, ts)

/-- Read the argument of a filter, if it has one. -/
def readArgument : Nat → List Token → Option (Option Expr × List Token)
  | 0, _ => none
  | fuel + 1, ts =>
    match ts with
    | .mark "(" :: .mark ")" :: rest => some (none, rest)
    | .mark "(" :: .name _ :: .mark "=" :: rest => do
      let (e, rest) ← read fuel 1 rest
      match rest with
      | .mark ")" :: rest => some (some e, rest)
      | _ => none
    | .mark "(" :: _ => none
    | _ => some (none, ts)

/-- Read an expression without operators around it. -/
def readFirst : Nat → List Token → Option (Expr × List Token)
  | 0, _ => none
  | fuel + 1, ts =>
    match ts with
    | .name "not" :: rest => do
      let (e, rest) ← read fuel 3 rest
      return (.not e, rest)
    | .name n :: rest =>
      match truthOf? n with
      | some b => some (.literal (.bool b), rest)
      | none => some (.name n, rest)
    | .number n :: rest => some (.literal (.num n), rest)
    | .mark "-" :: .number n :: rest => some (.literal (.num (negated n)), rest)
    | .quoted s :: rest => some (.literal (.str s), rest)
    | .mark "(" :: rest => do
      let (e, rest) ← read fuel 1 rest
      match rest with
      | .mark ")" :: rest => some (e, rest)
      | _ => none
    | .mark "[" :: rest => do
      let (items, rest) ← readItems fuel rest
      return (.list items, rest)
    | _ => none

/-- Read the elements of a list up to the bracket that ends it. -/
def readItems : Nat → List Token → Option (List Expr × List Token)
  | 0, _ => none
  | fuel + 1, ts =>
    match ts with
    | .mark "]" :: rest => some ([], rest)
    | _ => do
      let (e, rest) ← read fuel 1 ts
      match rest with
      | .mark "," :: rest =>
        let (items, rest) ← readItems fuel rest
        return (e :: items, rest)
      | .mark "]" :: rest => some ([e], rest)
      | _ => none

end

/-- Read all tokens as one expression.  Every token costs at most three steps. -/
def ofTokens? (ts : List Token) : Option Expr :=
  match read (3 * ts.length + 3) 1 ts with
  | some (e, []) => some e
  | _ => none

end Expr

/-! ### Blocks -/

/-- A block that is open, with the nodes before it and what it holds so far, both backwards. -/
inductive Open where
  /-- A block under a condition, with the conditions before it in the same choice. -/
  | choice (before : List Node) (earlier : List (Expr × List Node)) (condition : Expr)
  /-- The last block of a choice. -/
  | lastChoice (before : List Node) (earlier : List (Expr × List Node))
  /-- A repeated block. -/
  | repeated (before : List Node) (key? : Option String) (value : String) (container : Expr)
  /-- The block for a repetition without rounds. -/
  | noRounds (before : List Node) (key? : Option String) (value : String) (container : Expr)
    (body : List Node)

/-- The reader of blocks. -/
structure Reader where
  /-- The nodes of the innermost block, backwards. -/
  nodes : List Node := []
  /-- The open blocks, the innermost first. -/
  blocks : List Open := []

/-- A choice between blocks, the last condition first. -/
def chosen (earlier : List (Expr × List Node)) (otherwise : List Node) : List Node :=
  earlier.foldl (fun no (condition, yes) => [.branch condition yes no]) otherwise

/-- The names and the container of a repetition. -/
def repetition? : List Token → Option (Option String × String × Expr)
  | .name value :: .name "in" :: rest => (Expr.ofTokens? rest).map (none, value, ·)
  | .name key :: .mark "," :: .name value :: .name "in" :: rest =>
    (Expr.ofTokens? rest).map (some key, value, ·)
  | _ => none

namespace Reader

/-- Take a tag. -/
def takeTag (r : Reader) (tag : List Token) : Option Reader :=
  match tag, r.blocks with
  | .name "if" :: rest, blocks => do
    return ⟨[], .choice r.nodes [] (← Expr.ofTokens? rest) :: blocks⟩
  | .name "elif" :: rest, .choice before earlier condition :: blocks => do
    let earlier := (condition, r.nodes.reverse) :: earlier
    return ⟨[], .choice before earlier (← Expr.ofTokens? rest) :: blocks⟩
  | [.name "else"], .choice before earlier condition :: blocks =>
    some ⟨[], .lastChoice before ((condition, r.nodes.reverse) :: earlier) :: blocks⟩
  | [.name "else"], .repeated before key? value container :: blocks =>
    some ⟨[], .noRounds before key? value container r.nodes.reverse :: blocks⟩
  | [.name "endif"], .choice before earlier condition :: blocks =>
    some ⟨chosen ((condition, r.nodes.reverse) :: earlier) [] ++ before, blocks⟩
  | [.name "endif"], .lastChoice before earlier :: blocks =>
    some ⟨chosen earlier r.nodes.reverse ++ before, blocks⟩
  | .name "for" :: rest, blocks => do
    let (key?, value, container) ← repetition? rest
    return ⟨[], .repeated r.nodes key? value container :: blocks⟩
  | [.name "endfor"], .repeated before key? value container :: blocks =>
    some ⟨.each key? value container r.nodes.reverse [] :: before, blocks⟩
  | [.name "endfor"], .noRounds before key? value container body :: blocks =>
    some ⟨.each key? value container body r.nodes.reverse :: before, blocks⟩
  | _, _ => none

/-- Take a piece. -/
def take (r : Reader) : Piece → Option Reader
  | .text cs => some { r with nodes := .text (String.ofList cs) :: r.nodes }
  | .enclosed .value cs _ _ => do
    let e ← Expr.ofTokens? (← tokens cs)
    return { r with nodes := .output e :: r.nodes }
  | .enclosed .tag cs _ _ => do r.takeTag (← tokens cs)
  | .enclosed .remark _ _ _ => some r

end Reader

/-! ### Templates -/

/-- Whether a piece cuts off the blanks before it. -/
def Piece.trimsBefore : Piece → Bool
  | .enclosed _ _ before _ => before
  | .text _ => false

/-- Whether a piece cuts off the blanks behind it. -/
def Piece.trimsAfter : Piece → Bool
  | .enclosed _ _ _ after => after
  | .text _ => false

/-- Cut off the blanks of texts next to pieces that do so; `cut` says whether the piece before
does. -/
def trimPieces (cut : Bool) : List Piece → List Piece
  | [] => []
  | .text cs :: rest =>
    let cs := if cut then cs.dropWhile Text.isBlank else cs
    let cs :=
      if (rest.head?.map Piece.trimsBefore).getD false then Text.dropEndWhile Text.isBlank cs
      else cs
    .text cs :: trimPieces false rest
  | p :: rest => p :: trimPieces p.trimsAfter rest

/-- The nodes of a template. -/
def Node.ofTemplate? (template : String) : Option (List Node) := do
  let r ← (trimPieces false (← pieces template.toList)).foldlM Reader.take {}
  if r.blocks.isEmpty then some r.nodes.reverse else none

/-- A template rendered with the members of an object as its scope. -/
def loadPrompt (template : String) (scope : Json) : Except TemplateError String :=
  match Node.ofTemplate? template, scope with
  | none, _ => .error .malformed
  | some nodes, .obj members => Node.renderAll members nodes
  | some _, _ => .error .notAnObject

end Parley.Prompt
