import Parley.Json.Numeral

/-!
# Reading JSON text

The reader is a machine that takes one character at a time (`Reader.step`).  Between two characters
it knows what it is in the middle of (`Mode`), which lists and objects are open around that
(`Frame`) and how far it has come (`Position`), so that an error can say where it is.

`Json.parse` reads a text that holds one value and nothing else but blanks around it.
`Json.parseFirst` reads one value and ignores what follows it.

Reading a text in two portions is the same as reading it at once (`Reader.run_append`), which is
what lets statements about printed text go member by member.
-/

namespace Parley.Json

/-! ### Errors -/

/-- A place in a text: the line, counted from one, and how many bytes of it have been read. -/
structure Position where
  /-- The line, counted from one. -/
  line : Nat
  /-- The bytes of the line that have been read. -/
  column : Nat
deriving DecidableEq, Repr

/-- The beginning of a text. -/
def Position.start : Position := ⟨1, 0⟩

/-- The place behind a character. -/
def Position.behind (p : Position) (c : Char) : Position :=
  if c = '\n' then ⟨p.line + 1, 0⟩ else ⟨p.line, p.column + c.utf8Size⟩

/-- The place of a character: behind its first byte. -/
def Position.at (p : Position) (c : Char) : Position :=
  if c = '\n' then ⟨p.line + 1, 0⟩ else ⟨p.line, p.column + 1⟩

/-- Why a text is not JSON. -/
inductive Problem where
  | endInValue
  | endInObject
  | endInList
  | endInString
  | valueExpected
  | wordExpected
  | keyNotString
  | colonExpected
  | commaOrBraceExpected
  | commaOrBracketExpected
  | trailingComma
  | trailingCharacters
  | invalidEscape
  | controlCharacter
  | invalidNumber
  | tooDeep
  | surrogateUnfinished
  | surrogateAlone
  | numberOutOfRange
deriving DecidableEq, Repr

/-- The wording of a problem. -/
def Problem.message : Problem → String
  | .endInValue => "EOF while parsing a value"
  | .endInObject => "EOF while parsing an object"
  | .endInList => "EOF while parsing a list"
  | .endInString => "EOF while parsing a string"
  | .valueExpected => "expected value"
  | .wordExpected => "expected ident"
  | .keyNotString => "key must be a string"
  | .colonExpected => "expected `:`"
  | .commaOrBraceExpected => "expected `,` or `\x7d`"
  | .commaOrBracketExpected => "expected `,` or `]`"
  | .trailingComma => "trailing comma"
  | .trailingCharacters => "trailing characters"
  | .invalidEscape => "invalid escape"
  | .controlCharacter => "control character (\\u0000-\\u001F) found while parsing a string"
  | .invalidNumber => "invalid number"
  | .tooDeep => "recursion limit exceeded"
  | .surrogateUnfinished => "unexpected end of hex escape"
  | .surrogateAlone => "lone leading surrogate in hex escape"
  | .numberOutOfRange => "number out of range"

/-- A problem and where it is. -/
structure ParseError where
  /-- What is wrong. -/
  problem : Problem
  /-- Where it is. -/
  position : Position
deriving DecidableEq, Repr

/-- The wording of an error. -/
def ParseError.message (e : ParseError) : String :=
  e.problem.message ++ " at line " ++ toString e.position.line ++ " column " ++
    toString e.position.column

/-! ### The state of the reader -/

/-- A list or an object that is open. -/
inductive Frame where
  /-- A list, with its elements so far, the last first. -/
  | list (items : List Json)
  /-- An object, with its members so far, the last first, and the name of the next one. -/
  | object (members : List (String × Json)) (name : String)

/-- Where a quoted text is between its characters. -/
inductive Escape where
  /-- In no escape. -/
  | none
  /-- Behind a backslash. -/
  | letter
  /-- In four hexadecimal digits: how many bytes are missing, the value so far unless a digit was
  wrong, and the leading surrogate that came before. -/
  | hex (missing : Nat) (value? : Option Nat) (leading? : Option Nat)
  /-- Behind a leading surrogate. -/
  | backslash (leading : Nat)
  /-- Behind a leading surrogate and a backslash. -/
  | letterU (leading : Nat)

/-- What the reader is in the middle of. -/
inductive Mode where
  /-- A value must begin. -/
  | value
  /-- A list has just been opened. -/
  | firstItem
  /-- An element must follow a comma. -/
  | nextItem
  /-- An object has just been opened. -/
  | firstName
  /-- A name must follow a comma. -/
  | nextName
  /-- A colon must follow a name. -/
  | colon
  /-- The remaining letters of a literal. -/
  | word (rest : List Char) (value : Json)
  /-- A number. -/
  | number (n : Numeral)
  /-- A quoted text: whether it is a name, its characters so far, the last first, and the escape. -/
  | string (isName : Bool) (read : List Char) (escape : Escape)
  /-- A value inside a list or an object has ended. -/
  | afterValue
  /-- The outermost value has ended. -/
  | done (value : Json)

/-- The reader between two characters. -/
structure Reader where
  /-- What it is in the middle of. -/
  mode : Mode := .value
  /-- The open lists and objects, the innermost first. -/
  frames : List Frame := []
  /-- How far it has come. -/
  position : Position := .start

/-- How many lists and objects may be open at once. -/
def maxDepth : Nat := 127

/-- The blanks of the format. -/
def isSpace (c : Char) : Bool := c = ' ' || c = '\n' || c = '\t' || c = '\r'

/-- The value of a hexadecimal digit. -/
def hexValue? (c : Char) : Option Nat :=
  if c.isDigit then some (c.toNat - 48)
  else if 'a' ≤ c && c ≤ 'f' then some (c.toNat - 87)
  else if 'A' ≤ c && c ≤ 'F' then some (c.toNat - 55)
  else none

namespace Reader

/-- Hand a finished value to the innermost frame. -/
def complete (v : Json) : List Frame → Mode × List Frame
  | [] => (.done v, [])
  | .list items :: rest => (.afterValue, .list (v :: items) :: rest)
  | .object members name :: rest => (.afterValue, .object ((name, v) :: members) name :: rest)

/-- Stay in step with a character that was taken. -/
def goOn (r : Reader) (c : Char) (mode : Mode) (frames : List Frame) : Except ParseError Reader :=
  .ok ⟨mode, frames, r.position.behind c⟩

/-- Stop at a character. -/
def stopAt (r : Reader) (c : Char) (p : Problem) : Except ParseError Reader :=
  .error ⟨p, r.position.at c⟩

/-- Take a character and finish a value with it. -/
def finishWith (r : Reader) (c : Char) (v : Json) (frames : List Frame) :
    Except ParseError Reader :=
  let (mode, frames) := complete v frames
  r.goOn c mode frames

/-- Take the first character of a value. -/
def beginValue (r : Reader) (c : Char) : Except ParseError Reader :=
  if c = '[' then
    if r.frames.length < maxDepth then r.goOn c .firstItem (.list [] :: r.frames)
    else r.stopAt c .tooDeep
  else if c = '\x7b' then
    if r.frames.length < maxDepth then r.goOn c .firstName (.object [] "" :: r.frames)
    else r.stopAt c .tooDeep
  else if c = '"' then r.goOn c (.string false [] .none) r.frames
  else if c = 'n' then r.goOn c (.word ['u', 'l', 'l'] .null) r.frames
  else if c = 't' then r.goOn c (.word ['r', 'u', 'e'] (.bool true)) r.frames
  else if c = 'f' then r.goOn c (.word ['a', 'l', 's', 'e'] (.bool false)) r.frames
  else match Numeral.start? c with
    | some n => r.goOn c (.number n) r.frames
    | none => r.stopAt c .valueExpected

/-- Take a character behind a value: a comma, the end of the innermost frame, or, behind the
outermost value, nothing but blanks. -/
def afterValue (r : Reader) (c : Char) : Except ParseError Reader :=
  if isSpace c then r.goOn c r.mode r.frames
  else match r.frames with
    | [] => r.stopAt c .trailingCharacters
    | .list items :: rest =>
      if c = ',' then r.goOn c .nextItem r.frames
      else if c = ']' then r.finishWith c (.arr items.reverse) rest
      else r.stopAt c .commaOrBracketExpected
    | .object members _ :: rest =>
      if c = ',' then r.goOn c .nextName r.frames
      else if c = '\x7d' then r.finishWith c (.object members.reverse) rest
      else r.stopAt c .commaOrBraceExpected

/-- The character that a letter behind a backslash stands for. -/
def escapeLetter? (c : Char) : Option Char :=
  if c = '"' || c = '\\' || c = '/' then some c
  else if c = 'b' then some (Char.ofNat 8)
  else if c = 'f' then some (Char.ofNat 12)
  else if c = 'n' then some '\n'
  else if c = 'r' then some '\r'
  else if c = 't' then some '\t'
  else none

/-- End a quoted text, which is a name or a value. -/
def endString (r : Reader) (c : Char) (isName : Bool) (read : List Char) :
    Except ParseError Reader :=
  let s := String.ofList read.reverse
  if isName then
    match r.frames with
    | .object members _ :: rest => r.goOn c .colon (.object members s :: rest)
    | frames => r.goOn c .colon frames
  else r.finishWith c (.str s) r.frames

/-- Use the value of four hexadecimal digits, the last of which ends at `p`.  A leading surrogate
asks for a trailing one, and a trailing one must not stand alone. -/
def endHex (r : Reader) (p : Position) (isName : Bool) (read : List Char) (value : Nat)
    (leading? : Option Nat) : Except ParseError Reader :=
  let isLeading := 0xD800 ≤ value && value ≤ 0xDBFF
  let isTrailing := 0xDC00 ≤ value && value ≤ 0xDFFF
  match leading? with
  | none =>
    if isTrailing then .error ⟨.surrogateAlone, p⟩
    else if isLeading then .ok ⟨.string isName read (.backslash value), r.frames, p⟩
    else .ok ⟨.string isName (Char.ofNat value :: read) .none, r.frames, p⟩
  | some leading =>
    if isTrailing then
      let code := (leading - 0xD800) * 0x400 + (value - 0xDC00) + 0x10000
      .ok ⟨.string isName (Char.ofNat code :: read) .none, r.frames, p⟩
    else .error ⟨.surrogateAlone, p⟩

/-- Take a character where hexadecimal digits must stand.  The four places are counted in bytes, and
a wrong digit is reported only at the fourth of them. -/
def takeHex (r : Reader) (c : Char) (isName : Bool) (read : List Char) (missing : Nat)
    (value? : Option Nat) (leading? : Option Nat) : Except ParseError Reader :=
  let value? := do
    let v ← value?
    let d ← hexValue? c
    return v * 16 + d
  if c.utf8Size < missing then
    .ok ⟨.string isName read (.hex (missing - c.utf8Size) value? leading?), r.frames,
      r.position.behind c⟩
  else
    let p : Position :=
      if c = '\n' then ⟨r.position.line + 1, 0⟩ else ⟨r.position.line, r.position.column + missing⟩
    match value? with
    | some value => r.endHex p isName read value leading?
    | none => .error ⟨.invalidEscape, p⟩

/-- Take a character of a quoted text. -/
def takeString (r : Reader) (c : Char) (isName : Bool) (read : List Char) (escape : Escape) :
    Except ParseError Reader :=
  match escape with
  | .none =>
    if c = '"' then r.endString c isName read
    else if c = '\\' then r.goOn c (.string isName read .letter) r.frames
    else if c.val < 0x20 then r.stopAt c .controlCharacter
    else r.goOn c (.string isName (c :: read) .none) r.frames
  | .letter =>
    if c = 'u' then r.goOn c (.string isName read (.hex 4 (some 0) none)) r.frames
    else match escapeLetter? c with
      | some d => r.goOn c (.string isName (d :: read) .none) r.frames
      | none => r.stopAt c .invalidEscape
  | .hex missing value? leading? => r.takeHex c isName read missing value? leading?
  | .backslash leading =>
    if c = '\\' then r.goOn c (.string isName read (.letterU leading)) r.frames
    else r.stopAt c .surrogateUnfinished
  | .letterU leading =>
    if c = 'u' then r.goOn c (.string isName read (.hex 4 (some 0) (some leading))) r.frames
    else r.stopAt c .surrogateUnfinished

/-- Take the first character of a name. -/
def beginName (r : Reader) (c : Char) : Except ParseError Reader :=
  if c = '"' then r.goOn c (.string true [] .none) r.frames else r.stopAt c .keyNotString

/-- Take one character. -/
def step (r : Reader) (c : Char) : Except ParseError Reader :=
  match r.mode with
  | .value => if isSpace c then r.goOn c r.mode r.frames else r.beginValue c
  | .firstItem =>
    if isSpace c then r.goOn c r.mode r.frames
    else if c = ']' then r.finishWith c (.arr []) r.frames.tail
    else r.beginValue c
  | .nextItem =>
    if isSpace c then r.goOn c r.mode r.frames
    else if c = ']' then r.stopAt c .trailingComma
    else r.beginValue c
  | .firstName =>
    if isSpace c then r.goOn c r.mode r.frames
    else if c = '\x7d' then r.finishWith c (.obj []) r.frames.tail
    else r.beginName c
  | .nextName =>
    if isSpace c then r.goOn c r.mode r.frames
    else if c = '\x7d' then r.stopAt c .trailingComma
    else r.beginName c
  | .colon =>
    if isSpace c then r.goOn c r.mode r.frames
    else if c = ':' then r.goOn c .value r.frames
    else r.stopAt c .colonExpected
  | .word rest v =>
    match rest with
    | [] => r.stopAt c .wordExpected
    | w :: ws =>
      if c = w then
        if ws.isEmpty then r.finishWith c v r.frames else r.goOn c (.word ws v) r.frames
      else r.stopAt c .wordExpected
  | .number n =>
    match n.step c with
    | .goOn n => r.goOn c (.number n) r.frames
    | .malformed => r.stopAt c .invalidNumber
    | .tooLarge => r.stopAt c .numberOutOfRange
    | .over =>
      match n.value? with
      | none => .error ⟨.numberOutOfRange, r.position⟩
      | some v =>
        let (mode, frames) := complete (.num v) r.frames
        afterValue ⟨mode, frames, r.position⟩ c
  | .string isName read escape => r.takeString c isName read escape
  | .afterValue | .done _ => r.afterValue c

/-- Take a sequence of characters. -/
def run (r : Reader) : List Char → Except ParseError Reader
  | [] => .ok r
  | c :: rest =>
    match r.step c with
    | .error e => .error e
    | .ok r => r.run rest

/-- **Reading goes portion by portion.**  Taking two sequences one after the other is taking their
concatenation. -/
theorem run_append (r : Reader) (xs ys : List Char) :
    r.run (xs ++ ys) = (r.run xs).bind (·.run ys) := by
  induction xs generalizing r with
  | nil => rfl
  | cons c xs ih =>
    simp only [List.cons_append, run]
    cases r.step c with
    | error e => rfl
    | ok r => exact ih r

/-- The problem of a text that ends here. -/
def endProblem (r : Reader) : Problem :=
  match r.mode with
  | .firstItem => .endInList
  | .firstName | .colon => .endInObject
  | .string .. => .endInString
  | .afterValue =>
    match r.frames with
    | .object .. :: _ => .endInObject
    | _ => .endInList
  | _ => .endInValue

/-- The value of a text that ends here. -/
def finish (r : Reader) : Except ParseError Json :=
  match r.mode with
  | .done v => .ok v
  | .number n =>
    if n.isComplete then
      match n.value? with
      | none => .error ⟨.numberOutOfRange, r.position⟩
      | some v =>
        match complete (.num v) r.frames with
        | (.done v, _) => .ok v
        | (mode, frames) => .error ⟨endProblem ⟨mode, frames, r.position⟩, r.position⟩
    else .error ⟨.endInValue, r.position⟩
  | _ => .error ⟨r.endProblem, r.position⟩

/-- Take characters until the outermost value has ended. -/
def runFirst (r : Reader) : List Char → Except ParseError Json
  | [] => r.finish
  | c :: rest =>
    match r.mode with
    | .done v => .ok v
    | .number n =>
      match r.frames, n.step c with
      | [], .over =>
        match n.value? with
        | some v => .ok (.num v)
        | none => .error ⟨.numberOutOfRange, r.position⟩
      | _, _ =>
        match r.step c with
        | .error e => .error e
        | .ok r => r.runFirst rest
    | _ =>
      match r.step c with
      | .error e => .error e
      | .ok r => r.runFirst rest

end Reader

/-! ### Reading a whole text -/

/-- The value of a sequence of characters. -/
def parseChars (cs : List Char) : Except ParseError Json :=
  match Reader.run {} cs with
  | .error e => .error e
  | .ok r => r.finish

/-- The value that a text holds. -/
def parse (s : String) : Except ParseError Json := parseChars s.toList

/-- The first value of a text, whatever follows it. -/
def parseFirst (s : String) : Except ParseError Json := Reader.runFirst {} s.toList

end Parley.Json
