import Parley.Toml.Draft
import Parley.Toml.Number
import Parley.Toml.Quoted

/-!
# Reading TOML documents

A document is a sequence of lines: comments, headers of tables, and keys with values, which may go
on over several lines.  `Toml.parse?` answers with the entries of the outermost table, or `none`
when the text is no document.

Readers of parts answer with what they read and what follows it.  Their `fuel` is the number of
characters, which no sequence of steps can exceed.
-/

namespace Parley.Toml

/-! ### Blanks and comments -/

/-- What follows blanks within a line. -/
def skipBlanks (cs : List Char) : List Char := cs.dropWhile fun c => c = ' ' || c = '\t'

/-- What follows a comment, if one begins here. -/
def skipComment? (cs : List Char) : Option (List Char) :=
  match cs with
  | '#' :: rest =>
    let rest := rest.dropWhile Quoted.isPlain
    if rest.isEmpty || (Quoted.afterNewline? rest).isSome then some rest else none
  | cs => some cs

/-- What follows the end of a line. -/
def skipLineEnd? (cs : List Char) : Option (List Char) := do
  let rest ← skipComment? (skipBlanks cs)
  if rest.isEmpty then some [] else Quoted.afterNewline? rest

/-- What follows blanks, comments and ends of lines. -/
def skipFiller? : Nat → List Char → Option (List Char)
  | 0, _ => none
  | fuel + 1, cs => do
    let rest ← skipComment? (skipBlanks cs)
    match Quoted.afterNewline? rest with
    | some rest => skipFiller? fuel rest
    | none => some rest

/-! ### Keys -/

/-- Whether a character may stand in a key without quotes. -/
def isBare (c : Char) : Bool := c.isAlphanum || c = '_' || c = '-'

/-- One part of a key. -/
def keyPart? (cs : List Char) : Option (String × List Char) :=
  let bare := cs.takeWhile isBare
  if bare.isEmpty then Quoted.oneLine? cs else some (String.ofList bare, cs.drop bare.length)

/-- The parts of a key between points, with blanks around them. -/
def key? : Nat → List Char → Option (List String × List Char)
  | 0, _ => none
  | fuel + 1, cs => do
    let (part, rest) ← keyPart? (skipBlanks cs)
    match skipBlanks rest with
    | '.' :: rest =>
      let (parts, rest) ← key? fuel rest
      return (part :: parts, rest)
    | rest => return ([part], rest)

/-! ### Values -/

/-- Whether a character may stand in a word. -/
def isWordChar (c : Char) : Bool := c.isAlphanum || "_+-.:".toList.contains c

/-- The value of the word that begins here.  A date and a time with one space between them are one
word. -/
def word? (cs : List Char) : Option (Value × List Char) := do
  let word := cs.takeWhile isWordChar
  let rest := cs.drop word.length
  match date? word, rest with
  | some _, ' ' :: c :: more =>
    if c.isDigit then
      let time := (c :: more).takeWhile isWordChar
      return (← wordValue? (word ++ ' ' :: time), (c :: more).drop time.length)
    else return (← wordValue? word, rest)
  | _, _ => return (← wordValue? word, rest)

mutual

/-- The value that begins here. -/
def value? : Nat → List Char → Option (Value × List Char)
  | 0, _ => none
  | fuel + 1, cs =>
    match cs with
    | [] => none
    | c :: rest =>
      if Quoted.isMark c then (Quoted.any? cs).map fun (s, rest) => (.text s, rest)
      else if c = '[' then items? fuel [] rest
      else if c = '\x7b' then
        match skipBlanks rest with
        | '\x7d' :: rest => some (.table [], rest)
        | rest => members? fuel [] rest
      else word? cs

/-- The elements of a list up to its bracket; those before are `read`, the last first. -/
def items? : Nat → List Value → List Char → Option (Value × List Char)
  | 0, _, _ => none
  | fuel + 1, read, cs =>
    match skipFiller? (cs.length + 1) cs with
    | none => none
    | some (']' :: rest) => some (.list read.reverse, rest)
    | some rest =>
      match value? fuel rest with
      | none => none
      | some (v, rest) =>
        match skipFiller? (rest.length + 1) rest with
        | some (']' :: rest) => some (.list (v :: read).reverse, rest)
        | some (',' :: rest) => items? fuel (v :: read) rest
        | _ => none

/-- The entries of a table in braces up to its brace; those before are `read`. -/
def members? : Nat → Entries → List Char → Option (Value × List Char)
  | 0, _, _ => none
  | fuel + 1, read, cs =>
    match key? (cs.length + 1) cs with
    | some (key, '=' :: rest) =>
      match value? fuel (skipBlanks rest) with
      | none => none
      | some (v, rest) =>
        match Draft.addValue key.dropLast (key.getLast?.getD "") v read with
        | none => none
        | some read =>
          match skipBlanks rest with
          | '\x7d' :: rest => some (.table (Draft.finishEntries read), rest)
          | ',' :: rest => members? fuel read rest
          | _ => none
    | _ => none

end

/-! ### Lines -/

/-- A document of which some lines have been read. -/
structure Reading where
  /-- The outermost table. -/
  root : Entries := []
  /-- The table that keys are added to. -/
  current : List String := []

namespace Reading

/-- Take the header of a table, behind its opening brackets. -/
def header? (r : Reading) (isElement : Bool) (cs : List Char) : Option (Reading × List Char) := do
  let (path, rest) ← key? (cs.length + 1) cs
  let rest ← match isElement, rest with
    | false, ']' :: rest => some rest
    | true, ']' :: ']' :: rest => some rest
    | _, _ => none
  let name ← path.getLast?
  let add := if isElement then Draft.addElement else Draft.addTable
  let root ← Draft.update false (fun _ es => add name es) path.dropLast .named r.root
  return (⟨root, path⟩, rest)

/-- Take a key with its value. -/
def entry? (r : Reading) (cs : List Char) : Option (Reading × List Char) := do
  match ← key? (cs.length + 1) cs with
  | (path, '=' :: rest) =>
    let rest := skipBlanks rest
    let (v, rest) ← value? (rest.length + 1) rest
    let name ← path.getLast?
    let root ← Draft.update false (fun _ es => Draft.addValue path.dropLast name v es) r.current
      .named r.root
    return ({ r with root }, rest)
  | _ => none

/-- Take what stands in a line before its end. -/
def line? (r : Reading) (cs : List Char) : Option (Reading × List Char) :=
  match skipBlanks cs with
  | [] => some (r, [])
  | '[' :: '[' :: rest => r.header? true rest
  | '[' :: rest => r.header? false rest
  | c :: rest =>
    if c = '#' || c = '\n' || c = '\r' then some (r, c :: rest) else r.entry? (c :: rest)

/-- Take all lines. -/
def lines? : Nat → Reading → List Char → Option Reading
  | 0, _, _ => none
  | _ + 1, r, [] => some r
  | fuel + 1, r, cs => do
    let (r, rest) ← r.line? cs
    r.lines? fuel (← skipLineEnd? rest)
termination_by structural fuel => fuel

end Reading

/-- The entries of the outermost table of a document.  A mark of the byte order in front is no part
of it. -/
def parse? (s : String) : Option (List (String × Value)) := do
  let cs := match s.toList with
    | c :: rest => if c.toNat = 0xFEFF then rest else c :: rest
    | [] => []
  let r ← Reading.lines? (cs.length + 1) {} cs
  return Draft.finishEntries r.root

end Parley.Toml
