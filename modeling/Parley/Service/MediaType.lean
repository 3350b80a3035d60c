import Parley.Text.Casing

/-!
# Media types

What the sender of a body says it is: a type and a subtype with a slash between them, and
parameters, each behind a semicolon.  `MediaType.isJson` tells whether that is JSON.

Parameters matter only in that they must be well formed.  They are checked by an automaton
(`ParameterState`) that takes one character at a time.
-/

namespace Parley.Service.MediaType

/-- Whether a character may occur in a name. -/
def isTokenChar (c : Char) : Bool := c.isAlphanum || "!#$%&'*+-.^_`|~".toList.contains c

/-- Whether a character may occur between quotes. -/
def isQuotable (c : Char) : Bool := 0x20 ≤ c.val && c.val < 0x7F

/-! ### Parameters -/

/-- What may come next in a list of parameters. -/
inductive ParameterState where
  /-- A parameter, blanks before it, or the end. -/
  | start
  /-- More of its name, or the equals sign. -/
  | name
  /-- Its value. -/
  | value
  /-- More of a value without quotes. -/
  | bare
  /-- The first character between quotes, which may be a quote itself. -/
  | opened
  /-- More characters between quotes, or the quote that ends them. -/
  | quoted
  /-- Blanks, or the next parameter. -/
  | closed
  /-- Nothing: the parameters are malformed. -/
  | broken
deriving DecidableEq, Repr

namespace ParameterState

/-- Take a character. -/
def step : ParameterState → Char → ParameterState
  | .start, c => if c = ' ' then .start else if isTokenChar c then .name else .broken
  | .name, c => if c = '=' then .value else if isTokenChar c then .name else .broken
  | .value, c => if c = '"' then .opened else if isTokenChar c then .bare else .broken
  | .bare, c => if c = ';' then .start else if isTokenChar c then .bare else .broken
  | .opened, c => if isQuotable c then .quoted else .broken
  | .quoted, c => if c = '"' then .closed else if isQuotable c then .quoted else .broken
  | .closed, c => if c = ';' then .start else if c = ' ' then .closed else .broken
  | .broken, _ => .broken

/-- Whether the parameters may end. -/
def isEnd : ParameterState → Bool
  | .start | .value | .bare | .closed => true
  | .name | .opened | .quoted | .broken => false

end ParameterState

/-- Whether parameters are well formed. -/
def wellFormedParameters (cs : List Char) : Bool := (cs.foldl ParameterState.step .start).isEnd

/-! ### JSON -/

/-- Whether a subtype is JSON, or something written in it, as the part behind the last plus sign
says. -/
def isJsonSubtype (cs : List Char) : Bool :=
  let behind := (cs.reverse.takeWhile (· != '+')).reverse
  let before := cs.take (cs.length - (behind.length + 1))
  if before.isEmpty then cs = "json".toList
  else before = "json".toList || behind = "json".toList

/-- Whether a media type is JSON. -/
def isJson (s : String) : Bool :=
  let cs := (Text.lowerAscii s).toList
  let essence := cs.takeWhile (· != ';')
  let type := essence.takeWhile (· != '/')
  let subtype := (essence.dropWhile (· != '/')).drop 1
  type = "application".toList && subtype.all isTokenChar && isJsonSubtype subtype &&
    wellFormedParameters ((cs.dropWhile (· != ';')).drop 1)

end Parley.Service.MediaType
