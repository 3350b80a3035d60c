import Parley.Floating.Binary
import Parley.Json.Basic
import Parley.Text.Digits

/-!
# Pieces and tokens of a template

`pieces` cuts a template into texts, and what stands between double braces (a value), between a
brace and a percent sign (a tag) or between a brace and a number sign (a remark).  A hyphen next to
such a mark cuts off the blanks on its side.  `tokens` cuts the inside of a value or a tag into
tokens.
-/

namespace Parley.Prompt

/-! ### Pieces -/

/-- What a pair of marks encloses. -/
inductive Enclosed where
  | value
  | tag
  | remark
deriving DecidableEq, Repr

/-- A piece of a template. -/
inductive Piece where
  /-- A text. -/
  | text (cs : List Char)
  /-- What stands between two marks, and whether blanks before and behind it are cut off. -/
  | enclosed (kind : Enclosed) (cs : List Char) (trimsBefore trimsAfter : Bool)
deriving DecidableEq, Repr

/-- What a mark at the beginning of a text opens. -/
def opened? : Char → Option Enclosed
  | '\x7b' => some .value
  | '%' => some .tag
  | '#' => some .remark
  | _ => none

/-- The character that closes what a mark opened, followed by a brace. -/
def closing : Enclosed → Char
  | .value => '\x7d'
  | .tag => '%'
  | .remark => '#'

/-- What stands between two marks without the hyphens that cut off blanks. -/
def enclose (kind : Enclosed) (cs : List Char) : Piece :=
  let before := cs.head? = some '-'
  let cs := if before then cs.tail else cs
  let after := cs.getLast? = some '-'
  .enclosed kind (if after then cs.dropLast else cs) before after

/-- Where the reader is: in a text, or between two marks, perhaps within quotation marks.  What has
been read since is kept backwards. -/
inductive Place where
  | text (read : List Char)
  | inside (kind : Enclosed) (quote? : Option Char) (read : List Char)

/-- Whether a character is a quotation mark. -/
def isQuote (c : Char) : Bool := c = '"' || c = '\'' || c.val = 0x60

/-- The quotation that is open behind a character. -/
def quoteAfter (kind : Enclosed) (quote? : Option Char) (c : Char) : Option Char :=
  if kind = .remark then none
  else match quote? with
    | some q => if c = q then none else some q
    | none => if isQuote c then some c else none

/-- The pieces of a template from a place on; none where a mark is not closed. -/
def piecesFrom (place : Place) (done : List Piece) : List Char → Option (List Piece)
  | [] =>
    match place with
    | .text read => some (.text read.reverse :: done).reverse
    | .inside .. => none
  | [c] =>
    match place with
    | .text read => some (.text (c :: read).reverse :: done).reverse
    | .inside .. => none
  | c :: d :: rest =>
    match place with
    | .text read =>
      match if c = '\x7b' then opened? d else none with
      | some kind => piecesFrom (.inside kind none []) (.text read.reverse :: done) rest
      | none => piecesFrom (.text (c :: read)) done (d :: rest)
    | .inside kind quote? read =>
      if quote?.isNone && c = closing kind && d = '\x7d' then
        piecesFrom (.text []) (enclose kind read.reverse :: done) rest
      else piecesFrom (.inside kind (quoteAfter kind quote? c) (c :: read)) done (d :: rest)

/-- The pieces of a template. -/
def pieces (cs : List Char) : Option (List Piece) := piecesFrom (.text []) [] cs

/-! ### Tokens -/

/-- A token. -/
inductive Token where
  /-- A name. -/
  | name (name : String)
  /-- A point and the name behind it. -/
  | member (name : String)
  /-- A number. -/
  | number (n : Json.Number)
  /-- A text in quotation marks. -/
  | quoted (text : String)
  /-- Any other mark. -/
  | mark (mark : String)
deriving DecidableEq, Repr

/-- Whether a character may stand in a name. -/
def isNameChar (c : Char) : Bool := c.isAlphanum || c = '_'

/-- The number that digits and perhaps a fraction spell. -/
def numberOfDigits? (whole fraction : List Char) : Option Json.Number := do
  let digits ← Text.numeral? 10 (whole ++ fraction)
  if fraction.isEmpty then if Word.holds 63 digits then some (.int digits) else none
  else (Floating.binary64.ofDecimal false digits (-fraction.length)).map .float

/-- The marks of two characters. -/
def pairMarks : List String := ["==", "!=", "<=", ">="]

/-- The token at the beginning of a text that does not begin with a blank, and what follows it. -/
def token? : List Char → Option (Token × List Char)
  | [] => none
  | c :: rest =>
    if isQuote c then
      match rest.span (· ≠ c) with
      | (text, _ :: rest) => some (.quoted (String.ofList text), rest)
      | (_, []) => none
    else if c.isDigit then
      let (whole, rest) := (c :: rest).span Char.isDigit
      match rest with
      | '.' :: d :: rest' =>
        if d.isDigit then
          let (fraction, rest) := (d :: rest').span Char.isDigit
          (numberOfDigits? whole fraction).map fun n => (.number n, rest)
        else none
      | _ => (numberOfDigits? whole []).map fun n => (.number n, rest)
    else if isNameChar c then
      let (name, rest) := (c :: rest).span isNameChar
      some (.name (String.ofList name), rest)
    else if c = '.' then
      match rest.span isNameChar with
      | ([], _) => none
      | (name, rest) => some (.member (String.ofList name), rest)
    else match rest with
      | d :: rest' =>
        if pairMarks.contains (String.ofList [c, d]) then some (.mark (String.ofList [c, d]), rest')
        else some (.mark (String.singleton c), rest)
      | [] => some (.mark (String.singleton c), [])

/-- Whether a character separates tokens. -/
def isSeparator (c : Char) : Bool := c = ' ' || c = '\t' || c = '\r' || c = '\n'

/-- The tokens of a text, of which there are at most `fuel`. -/
def tokensWithin : Nat → List Char → Option (List Token)
  | fuel, cs =>
    match cs.dropWhile isSeparator with
    | [] => some []
    | cs =>
      match fuel with
      | 0 => none
      | fuel + 1 => do
        let (t, rest) ← token? cs
        return t :: (← tokensWithin fuel rest)

/-- The tokens of a text.  There are no more of them than characters. -/
def tokens (cs : List Char) : Option (List Token) := tokensWithin cs.length cs

end Parley.Prompt
