import Parley.Text.Casing.Table

/-!
# Upper and lower case

`lower` and `upper` are the full case mappings of the Unicode standard: a text is mapped character
by character, a few characters turn into several, and a capital sigma at the end of a word becomes
the final form of the small letter.  `lowerAscii` touches the letters A to Z only; it is what a
comparison that ignores ASCII case goes through.

The tables are in `Parley.Text.Casing.Table`.
-/

namespace Parley.Text

namespace Casing

/-! ### Looking up the tables -/

/-- The run that holds a code point, if there is one.  The runs ascend, so the search stops at the
first that begins beyond the code point. -/
def Run.find? (cp : Nat) : List Run → Option Run
  | [] => none
  | r :: rest =>
    if cp < r.first then none
    else if cp ≤ r.last && (cp - r.first) % r.step == 0 then some r
    else Run.find? cp rest

/-- Whether a code point lies in one of the ascending ranges. -/
def inRanges (cp : Nat) : List (Nat × Nat) → Bool
  | [] => false
  | (a, b) :: rest => if cp < a then false else cp ≤ b || inRanges cp rest

/-- Move a character along its run; a character in no run stays. -/
def shifted (runs : List Run) (c : Char) : Char :=
  match Run.find? c.toNat runs with
  | some r => Char.ofNat (c.toNat + r.shift).toNat
  | none => c

/-- Whether a character has case. -/
def isCased (c : Char) : Bool := inRanges c.toNat casedRanges

/-- Whether case rules look through a character. -/
def isIgnorable (c : Char) : Bool := inRanges c.toNat ignorableRanges

/-- The lower case of one character, outside the rule for a final sigma. -/
def lowerChar (c : Char) : List Char :=
  if c.val < 0x80 then [c.toLower]
  else if c.val == 0x130 then ['i', Char.ofNat 0x307]
  else [shifted lowerRuns c]

/-- The upper case of one character. -/
def upperChar (c : Char) : List Char :=
  if c.val < 0x80 then [c.toUpper]
  else match upperExpansions.lookup c.toNat with
    | some cps => cps.map Char.ofNat
    | none => [shifted upperRuns c]

/-- Whether the first character that case rules do not look through has case. -/
def startsCased (cs : List Char) : Bool :=
  match cs.dropWhile isIgnorable with
  | c :: _ => isCased c
  | [] => false

/-- The lower case of one character between the part of the text before it, read backwards, and the
part after it.  A capital sigma that ends a word, having a cased character before it and none after
it, becomes a final sigma. -/
def lowerBetween (before : List Char) (c : Char) (after : List Char) : List Char :=
  if c.val == 0x3A3 then
    if startsCased before && !startsCased after then [Char.ofNat 0x3C2] else [Char.ofNat 0x3C3]
  else lowerChar c

/-- Lower case of the rest of a text, put behind what is written already.  Both `before`, the part
that is done, and `written`, its lower case, are read backwards. -/
def lowerOnto (before written : List Char) : List Char → List Char
  | [] => written.reverse
  | c :: rest => lowerOnto (c :: before) ((lowerBetween before c rest).reverse ++ written) rest

end Casing

/-! ### The mappings -/

/-- A text in lower case. -/
def lower (s : String) : String := String.ofList (Casing.lowerOnto [] [] s.toList)

/-- A text in upper case. -/
def upper (s : String) : String := String.ofList (s.toList.flatMap Casing.upperChar)

/-- A text with the letters A to Z in lower case and all else as it is. -/
def lowerAscii (s : String) : String := String.ofList (s.toList.map Char.toLower)

/-- A text with the letters a to z in upper case and all else as it is. -/
def upperAscii (s : String) : String := String.ofList (s.toList.map Char.toUpper)

/-- Whether two texts are equal up to the case of the letters A to Z. -/
def eqIgnoringAsciiCase (s t : String) : Bool := lowerAscii s == lowerAscii t

end Parley.Text
