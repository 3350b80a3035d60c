import Parley.Json.Basic

/-!
# Reading numbers, one character at a time

A `Numeral` is a number of which a beginning has been read: which part of it is under way, the
digits so far as a word of 64 bits, and the power of ten they are to be scaled by.  Digits that
would overflow the word no longer enter it: before the point they raise the power of ten, after the
point they are dropped.

A numeral without point and exponent whose digits fit is an integer; any other is a float.  A float
is computed in two roundings: the digits are rounded first, then multiplied or divided by the
rounded power of ten (`Floating.ofWord`).  For up to fifteen digits and small exponents both steps
are exact or correctly rounded, so the result is the nearest float; beyond that it can be a
neighbour of it.
-/

namespace Parley

namespace Floating

/-! ### From digits and a power of ten to a float -/

/-- The greatest exponent of a power of ten within the format. -/
def maxTen : Nat := 308

/-- Multiply or divide by a power of ten within the format, rounding once.  None when the result is
out of range. -/
def scaleOnce (x : Binary) (exponent : Int) : Option Binary := do
  let p ← binary64.tenPow exponent.natAbs
  if 0 ≤ exponent then binary64.mul x p else binary64.div x p

/-- Divide `n` times by the greatest power of ten of the format, or until zero is reached. -/
def shrink : Nat → Binary → Option Binary
  | 0, x => some x
  | n + 1, x => if x.significand = 0 then some x else do shrink n (← scaleOnce x (-maxTen))

/-- Scale a value by a power of ten.  A power below the format is taken in steps; one above it is
out of range for every value but zero. -/
def scaleByTen (x : Binary) (exponent : Int) : Option Binary :=
  if exponent.natAbs ≤ maxTen then scaleOnce x exponent
  else if x.significand = 0 then some x
  else if 0 ≤ exponent then none
  else
    let steps := (exponent.natAbs - 1) / maxTen
    (shrink steps x).bind (scaleOnce · (exponent + steps * maxTen))

/-- The float that a word of digits and a power of ten stand for. -/
def ofWord (negative : Bool) (digits : Nat) (exponent : Int) : Option Binary := do
  let x ← binary64.ofNat false digits
  let y ← scaleByTen x exponent
  return { y with negative := negative }

end Floating

namespace Json

open Floating (ofWord binary64)

/-! ### Numerals -/

/-- The part of a numeral that is under way. -/
inductive Part where
  /-- The sign has been read; a digit must follow. -/
  | sign
  /-- A leading zero, which no digit may follow. -/
  | zero
  /-- Digits that all fit the word. -/
  | whole
  /-- Digits beyond the word. -/
  | long
  /-- The point has been read; a digit must follow. -/
  | point
  /-- Digits after the point that fit the word. -/
  | fraction
  /-- Digits after the point that are dropped. -/
  | dropped
  /-- The exponent mark has been read. -/
  | mark
  /-- The sign of the exponent has been read; a digit must follow. -/
  | markSign
  /-- Digits of the exponent. -/
  | power
  /-- Digits of an exponent so large that the value is zero. -/
  | vanished
deriving DecidableEq, Repr

/-- A number of which a beginning has been read. -/
structure Numeral where
  /-- The part that is under way. -/
  part : Part
  /-- Whether it began with a minus. -/
  negative : Bool
  /-- The digits that entered the word. -/
  digits : Nat := 0
  /-- The power of ten that the digits before the exponent mark call for. -/
  scale : Int := 0
  /-- Whether the exponent has a minus. -/
  powerNegative : Bool := false
  /-- The exponent after the mark. -/
  power : Nat := 0
deriving Repr

/-- What a character does to a numeral. -/
inductive Numeral.Step where
  /-- It belongs to the numeral. -/
  | goOn (n : Numeral)
  /-- It does not belong to the numeral, which is complete. -/
  | over
  /-- A numeral cannot go on like that. -/
  | malformed
  /-- The exponent has grown beyond every float. -/
  | tooLarge

/-- The value of a decimal digit. -/
def digitValue (c : Char) : Nat := c.toNat - 48

/-- Whether one more digit still fits the word. -/
def fitsWord (digits : Nat) (c : Char) : Bool := Word.holds 64 (digits * 10 + digitValue c)

namespace Numeral

/-- Take a digit after the point. -/
def takeFraction (n : Numeral) (c : Char) : Numeral :=
  if fitsWord n.digits c then
    { n with part := .fraction, digits := n.digits * 10 + digitValue c, scale := n.scale - 1 }
  else { n with part := .dropped }

/-- Take a digit of the exponent.  An exponent that outgrows 31 bits makes a number too large or
zero. -/
def takePower (n : Numeral) (c : Char) : Step :=
  if Word.holds 31 (n.power * 10 + digitValue c) then
    .goOn { n with part := .power, power := n.power * 10 + digitValue c }
  else if n.digits ≠ 0 && !n.powerNegative then .tooLarge
  else .goOn { n with part := .vanished }

/-- What may follow the digits before the point. -/
def afterWhole (n : Numeral) (c : Char) : Step :=
  if c = '.' then .goOn { n with part := .point }
  else if c = 'e' || c = 'E' then .goOn { n with part := .mark }
  else .over

/-- What may follow the digits after the point. -/
def afterFraction (n : Numeral) (c : Char) : Step :=
  if c = 'e' || c = 'E' then .goOn { n with part := .mark } else .over

/-- Take one character. -/
def step (n : Numeral) (c : Char) : Step :=
  match n.part with
  | .sign =>
    if c = '0' then .goOn { n with part := .zero }
    else if c.isDigit then .goOn { n with part := .whole, digits := digitValue c }
    else .malformed
  | .zero => if c.isDigit then .malformed else n.afterWhole c
  | .whole =>
    if c.isDigit then
      if fitsWord n.digits c then .goOn { n with digits := n.digits * 10 + digitValue c }
      else .goOn { n with part := .long, scale := 1 }
    else n.afterWhole c
  | .long => if c.isDigit then .goOn { n with scale := n.scale + 1 } else n.afterWhole c
  | .point => if c.isDigit then .goOn (n.takeFraction c) else .malformed
  | .fraction => if c.isDigit then .goOn (n.takeFraction c) else n.afterFraction c
  | .dropped => if c.isDigit then .goOn n else n.afterFraction c
  | .mark =>
    if c = '+' then .goOn { n with part := .markSign }
    else if c = '-' then .goOn { n with part := .markSign, powerNegative := true }
    else if c.isDigit then n.takePower c
    else .malformed
  | .markSign => if c.isDigit then n.takePower c else .malformed
  | .power => if c.isDigit then n.takePower c else .over
  | .vanished => if c.isDigit then .goOn n else .over

/-- The numeral that a first character begins. -/
def start? (c : Char) : Option Numeral :=
  if c = '-' then some { part := .sign, negative := true }
  else if c = '0' then some { part := .zero, negative := false }
  else if c.isDigit then some { part := .whole, negative := false, digits := digitValue c }
  else none

/-- Whether a numeral may end here. -/
def isComplete (n : Numeral) : Bool :=
  match n.part with
  | .sign | .point | .mark | .markSign => false
  | _ => true

/-- The integer of a numeral without point and exponent.  A negative number that is zero or does not
fit a signed word of 64 bits is a float. -/
def whole (n : Numeral) : Option Number :=
  if !n.negative then some (.int n.digits)
  else if n.digits ≠ 0 && n.digits ≤ Word.count 63 then some (.int (-n.digits))
  else (binary64.ofNat true n.digits).map .float

/-- The number that a complete numeral stands for; none when it is beyond every float. -/
def value? (n : Numeral) : Option Number :=
  match n.part with
  | .zero | .whole => n.whole
  | .vanished => some (.float (binary64.zero n.negative))
  | _ =>
    let power : Int := if n.powerNegative then -n.power else n.power
    (ofWord n.negative n.digits (n.scale + power)).map .float

end Numeral

end Json

end Parley
