import Parley.Text.Digits

/-!
# Quoted texts

A text stands between quotes, in which a backslash begins an escape, or between apostrophes, which
take everything as it is.  Three marks in a row begin a text of several lines, which ends at the
next three.

All readers begin behind the opening marks.  They answer with the text and what follows the closing
marks.
-/

namespace Parley.Toml.Quoted

/-- Whether a character may stand in a text of one line, or in a comment. -/
def isPlain (c : Char) : Bool := c = '\t' || (0x20 ≤ c.val && c.val ≠ 0x7F)

/-- The character with a code in hexadecimal digits. -/
def ofCode? (digits : List Char) : Option Char := do
  let n ← Text.numeral? 16 digits
  if h : n.isValidChar then some (Char.ofNatAux n h) else none

/-- The character that a letter behind a backslash stands for. -/
def escapeLetter? (c : Char) : Option Char :=
  if c = '"' || c = '\\' then some c
  else if c = 'b' then some (Char.ofNat 8)
  else if c = 'f' then some (Char.ofNat 12)
  else if c = 'n' then some '\n'
  else if c = 'r' then some '\r'
  else if c = 't' then some '\t'
  else none

/-- The character of an escape, and what follows it. -/
def escape? : List Char → Option (Char × List Char)
  | [] => none
  | c :: rest =>
    let code (n : Nat) : Option (Char × List Char) :=
      if n ≤ rest.length then (ofCode? (rest.take n)).map (·, rest.drop n) else none
    if c = 'u' then code 4
    else if c = 'U' then code 8
    else (escapeLetter? c).map (·, rest)

/-- What follows an end of line. -/
def afterNewline? : List Char → Option (List Char)
  | '\n' :: rest => some rest
  | '\r' :: '\n' :: rest => some rest
  | _ => none

/-- What follows a backslash at the end of a line: the next character that is no blank. -/
def afterFold? (cs : List Char) : Option (List Char) := do
  let rest ← afterNewline? (cs.dropWhile fun c => c = ' ' || c = '\t')
  return rest.dropWhile fun c => c = ' ' || c = '\t' || c = '\n' || c = '\r'

/-- The text of one line up to its closing mark; the characters before are `read`, the last
first. -/
def line? (mark : Char) : Nat → List Char → List Char → Option (String × List Char)
  | 0, _, _ => none
  | fuel + 1, read, cs =>
    match cs with
    | [] => none
    | c :: rest =>
      if c = mark then some (String.ofList read.reverse, rest)
      else if c = '\\' && mark = '"' then
        match escape? rest with
        | some (d, rest) => line? mark fuel (d :: read) rest
        | none => none
      else if isPlain c then line? mark fuel (c :: read) rest
      else none

/-- The text of several lines up to its closing marks. -/
def lines? (mark : Char) : Nat → List Char → List Char → Option (String × List Char)
  | 0, _, _ => none
  | fuel + 1, read, cs =>
    match cs with
    | [] => none
    | c :: rest =>
      if c = mark then
        let marks := cs.takeWhile (· == mark)
        if marks.length < 3 then lines? mark fuel (mark :: read) rest
        else
          let extra := min (marks.length - 3) 2
          some (String.ofList (List.replicate extra mark ++ read).reverse, cs.drop (3 + extra))
      else if c = '\\' && mark = '"' then
        match escape? rest with
        | some (d, rest) => lines? mark fuel (d :: read) rest
        | none =>
          match afterFold? rest with
          | some rest => lines? mark fuel read rest
          | none => none
      else match afterNewline? cs with
        | some rest => lines? mark fuel ('\n' :: read) rest
        | none => if isPlain c then lines? mark fuel (c :: read) rest else none

/-- The mark of texts that take everything as it is. -/
def apostrophe : Char := Char.ofNat 39

/-- Whether a character is a mark. -/
def isMark (c : Char) : Bool := c = '"' || c = apostrophe

/-- The text that a sequence of characters begins with, if it begins with a mark. -/
def oneLine? : List Char → Option (String × List Char)
  | [] => none
  | c :: rest => if isMark c then line? c (rest.length + 1) [] rest else none

/-- The text that a sequence of characters begins with, of one line or several. -/
def any? (cs : List Char) : Option (String × List Char) :=
  match cs with
  | c :: d :: e :: rest =>
    if isMark c && d = c && e = c then
      lines? c (rest.length + 1) [] ((afterNewline? rest).getD rest)
    else oneLine? cs
  | _ => oneLine? cs

end Parley.Toml.Quoted
