import Parley.Text.Utf8

/-!
# Percent encoding

A byte that may not stand for itself in an address is written as `%` and two hexadecimal digits.
Which characters stand for themselves depends on the part of the address; the sets are nested, and
none of them has a character beyond ASCII.

Form encoding, which queries are built with, keeps letters, digits and four marks, and writes a
space as a plus sign.
-/

namespace Parley.Net.Percent

/-! ### Characters that are encoded -/

/-- Controls and whatever lies beyond ASCII. -/
def isControl (c : Char) : Bool := c.val < 0x20 || 0x7E < c.val

/-- What is encoded in a fragment. -/
def inFragment (c : Char) : Bool := isControl c || " \"<>`".toList.contains c

/-- What is encoded in a query. -/
def inQuery (c : Char) : Bool := isControl c || " \"#<>".toList.contains c

/-- What is encoded in the query of a web address. -/
def inSpecialQuery (c : Char) : Bool := inQuery c || c = '\''

/-- What is encoded in a path. -/
def inPath (c : Char) : Bool := inFragment c || "#?\x7b\x7d".toList.contains c

/-- What is encoded in a user name or a password. -/
def inUserInfo (c : Char) : Bool := inPath c || "/:;=@[\\]^|".toList.contains c

/-! ### Encoding -/

/-- A hexadecimal digit in upper case. -/
def hexDigit (n : Nat) : Char := if n < 10 then Char.ofNat (48 + n) else Char.ofNat (55 + n)

/-- An encoded byte. -/
def encodeByte (b : UInt8) : List Char := ['%', hexDigit (b.toNat / 16), hexDigit (b.toNat % 16)]

/-- An encoded character. -/
def encodeChar (c : Char) : List Char := (Text.Utf8.encode (String.singleton c)).flatMap encodeByte

/-- Characters, with those of a set encoded. -/
def encode (isEncoded : Char → Bool) (cs : List Char) : List Char :=
  cs.flatMap fun c => if isEncoded c then encodeChar c else [c]

/-- Whether form encoding keeps a character. -/
def formKeeps (c : Char) : Bool := c.isAlphanum || "*-._".toList.contains c

/-- A text in form encoding. -/
def formEncode (s : String) : String :=
  String.ofList <| s.toList.flatMap fun c =>
    if c = ' ' then ['+'] else if formKeeps c then [c] else encodeChar c

/-! ### Decoding -/

/-- The value of a hexadecimal digit. -/
def hexValue? (b : UInt8) : Option UInt8 :=
  if 48 ≤ b && b ≤ 57 then some (b - 48)
  else if 65 ≤ b && b ≤ 70 then some (b - 55)
  else if 97 ≤ b && b ≤ 102 then some (b - 87)
  else none

/-- Bytes with every encoded byte decoded.  A percent sign without two digits behind it stands for
itself. -/
def decodeBytes : List UInt8 → List UInt8
  | 37 :: h :: l :: rest =>
    match hexValue? h, hexValue? l with
    | some h', some l' => (h' * 16 + l') :: decodeBytes rest
    | _, _ => 37 :: decodeBytes (h :: l :: rest)
  | b :: rest => b :: decodeBytes rest
  | [] => []

/-- The bytes that a text stands for. -/
def decode (s : String) : List UInt8 := decodeBytes (Text.Utf8.encode s)

end Parley.Net.Percent
