import Parley.Floating.Shortest
import Parley.Json.Basic

/-!
# Compact JSON text

`Json.print` writes a value without any blanks.  Members appear in the order in which the object
holds them, so canonical values are printed with ascending names.  A text is quoted with as few
escapes as the format allows: the quote, the backslash and the control characters below the space;
everything else stands for itself.  Floats are written with the shortest digits that read back.
-/

namespace Parley.Json

open Floating (Layout binary64)

/-! ### Numbers -/

/-- Floats are written plainly, with at least one digit of fraction, while the exponent of the
leading digit lies between -5 and 15. -/
def floatLayout : Layout := ⟨fun e => -5 ≤ e && e ≤ 15, true⟩

/-- The digits of an integer, with a minus where it is negative. -/
def intChars (i : Int) : List Char :=
  if i < 0 then '-' :: Nat.toDigits 10 i.natAbs else Nat.toDigits 10 i.natAbs

/-- The text of a number. -/
def Number.chars : Number → List Char
  | .int i => intChars i
  | .float x => floatLayout.render binary64 x

/-! ### Texts -/

/-- A digit of a hexadecimal escape, in lower case. -/
def hexDigit (n : Nat) : Char := Nat.digitChar (n % 16)

/-- How one character stands between quotes. -/
def escape (c : Char) : List Char :=
  if c = '"' then ['\\', '"']
  else if c = '\\' then ['\\', '\\']
  else if c.val < 0x20 then
    if c = '\n' then ['\\', 'n']
    else if c = '\r' then ['\\', 'r']
    else if c = '\t' then ['\\', 't']
    else if c.val = 8 then ['\\', 'b']
    else if c.val = 12 then ['\\', 'f']
    else ['\\', 'u', '0', '0', hexDigit (c.toNat / 16), hexDigit c.toNat]
  else [c]

/-- A quoted text. -/
def quoted (s : String) : List Char := '"' :: s.toList.flatMap escape ++ ['"']

/-! ### Values -/

mutual

/-- The compact text of a value, as characters. -/
def chars : Json → List Char
  | .null => ['n', 'u', 'l', 'l']
  | .bool true => ['t', 'r', 'u', 'e']
  | .bool false => ['f', 'a', 'l', 's', 'e']
  | .num n => n.chars
  | .str s => quoted s
  | .arr items => '[' :: itemsChars items ++ [']']
  | .obj members => '\x7b' :: membersChars members ++ ['\x7d']

/-- The elements of a list with commas between them. -/
def itemsChars : List Json → List Char
  | [] => []
  | v :: [] => chars v
  | v :: rest => chars v ++ ',' :: itemsChars rest

/-- The members of an object with commas between them. -/
def membersChars : List (String × Json) → List Char
  | [] => []
  | (k, v) :: [] => quoted k ++ ':' :: chars v
  | (k, v) :: rest => quoted k ++ ':' :: chars v ++ ',' :: membersChars rest

end

/-- The compact text of a value. -/
def print (v : Json) : String := String.ofList v.chars

@[simp] theorem toList_print (v : Json) : v.print.toList = v.chars := by simp [print]

end Parley.Json
