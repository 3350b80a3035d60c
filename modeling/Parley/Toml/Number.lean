import Parley.Text.Pieces
import Parley.Toml.Value
import Parley.Word

/-!
# Words that stand for numbers and dates

A value that is neither quoted nor bracketed is one word.  `wordValue?` reads it: a truth value, an
integer in one of four bases, a float, or a date, a time or both.  Underscores may stand between
digits.
-/

namespace Parley.Toml

open Floating (Double)
open Text (digitValue? number? signed)

/-! ### Integers -/

/-- The digits of a base, without the underscores between them. -/
def digits? (base : Nat) (cs : List Char) : Option (List Char) :=
  let pieces := Text.split (· == '_') cs
  if pieces.all fun p => !p.isEmpty && p.all fun c => (digitValue? base c).isSome then
    some pieces.flatten
  else none

/-- Decimal digits that do not begin with a needless zero. -/
def wholeDigits? (cs : List Char) : Option (List Char) :=
  (digits? 10 cs).filter fun ds => ds.length = 1 || ds.head? != some '0'

/-- Whether an integer fits a signed word of 64 bits. -/
def fitsWord (i : Int) : Bool := Word.holdsSigned 64 i

/-- The integer that a word stands for. -/
def integer? (cs : List Char) : Option Int := do
  let i : Int ← match cs with
    | '0' :: 'x' :: rest => (digits? 16 rest).bind fun ds => (number? 16 ds).map Int.ofNat
    | '0' :: 'o' :: rest => (digits? 8 rest).bind fun ds => (number? 8 ds).map Int.ofNat
    | '0' :: 'b' :: rest => (digits? 2 rest).bind fun ds => (number? 2 ds).map Int.ofNat
    | cs =>
      let (negative, body) := signed cs
      (wholeDigits? body).bind fun ds => (number? 10 ds).map fun n => if negative then -n else n
  guard (fitsWord i)
  return i

/-! ### Floats -/

/-- The float that a word stands for.  It has a fraction, an exponent or both, and must not be too
large; words for infinity and for no number are written in lower case. -/
def float? (cs : List Char) : Option Double := do
  let (negative, body) := signed cs
  if body = "inf".toList then return .infinite negative
  if body = "nan".toList then return .nan
  let isMark (c : Char) : Bool := c = 'e' || c = 'E'
  let mantissa := body.takeWhile (!isMark ·)
  let whole := mantissa.takeWhile (· != '.')
  let ds ← wholeDigits? whole
  let fraction ← match mantissa.dropWhile (· != '.') with
    | [] => some []
    | _ :: rest => digits? 10 rest
  let power ← match body.dropWhile (!isMark ·) with
    | [] => some 0
    | _ :: rest =>
      let (minus, rest) := signed rest
      (digits? 10 rest).bind fun ds => (number? 10 ds).map fun n => if minus then -(n : Int) else n
  guard (whole.length < body.length)
  let x := Double.ofDecimal negative (← number? 10 (ds ++ fraction)) (power - fraction.length)
  guard (x ≠ .infinite false)
  return x

/-! ### Dates and times -/

/-- A number of a fixed count of digits between two bounds. -/
def fixed? (count low high : Nat) (cs : List Char) : Option Nat :=
  if cs.length = count then (Text.numeral? 10 cs).filter fun n => low ≤ n && n ≤ high else none

/-- How many days a month has. -/
def daysIn (year month : Nat) : Nat :=
  if month = 2 then
    if year % 4 = 0 ∧ (year % 100 ≠ 0 ∨ year % 400 = 0) then 29 else 28
  else if [4, 6, 9, 11].contains month then 30
  else 31

/-- The normal form of a date. -/
def date? (cs : List Char) : Option String := do
  guard (cs.length = 10 ∧ cs[4]? = some '-' ∧ cs[7]? = some '-')
  let year ← fixed? 4 0 9999 (cs.take 4)
  let month ← fixed? 2 1 12 ((cs.drop 5).take 2)
  let _ ← fixed? 2 1 (daysIn year month) (cs.drop 8)
  return String.ofList cs

/-- The normal form of hours and minutes. -/
def minutes? (cs : List Char) : Option String := do
  guard (cs.length = 5 ∧ cs[2]? = some ':')
  let _ ← fixed? 2 0 23 (cs.take 2)
  let _ ← fixed? 2 0 59 (cs.drop 3)
  return String.ofList cs

/-- The normal form of a fraction of a second: at most nine digits, and no zeros at the end. -/
def secondFraction? : List Char → Option String
  | [] => some ""
  | '.' :: ds => do
    guard (!ds.isEmpty && ds.all Char.isDigit)
    let kept := ((ds.take 9).reverse.dropWhile (· == '0')).reverse
    return if kept.isEmpty then "" else "." ++ String.ofList kept
  | _ => none

/-- The normal form of a time. -/
def time? (cs : List Char) : Option String := do
  let start ← minutes? (cs.take 5)
  guard (cs[5]? = some ':')
  let seconds := (cs.drop 6).take 2
  let _ ← fixed? 2 0 60 seconds
  return start ++ ":" ++ String.ofList seconds ++ (← secondFraction? (cs.drop 8))

/-- The normal form of a distance from universal time. -/
def offset? : List Char → Option String
  | [] => some ""
  | 'Z' :: [] | 'z' :: [] => some "Z"
  | '+' :: rest => (minutes? rest).map ("+" ++ ·)
  | '-' :: rest => (minutes? rest).map fun s => if s = "00:00" then "+" ++ s else "-" ++ s
  | _ => none

/-- The normal form of a date, a time, or both with a distance from universal time. -/
def moment? (cs : List Char) : Option String :=
  if cs[2]? = some ':' then time? cs
  else do
    let date ← date? (cs.take 10)
    match cs.drop 10 with
    | [] => return date
    | t :: rest =>
      guard (t = 'T' ∨ t = 't' ∨ t = ' ')
      let isOffset (c : Char) : Bool := c = 'Z' || c = 'z' || c = '+' || c = '-'
      return date ++ "T" ++ (← time? (rest.takeWhile (!isOffset ·))) ++
        (← offset? (rest.dropWhile (!isOffset ·)))

/-! ### Words -/

/-- The value that a word stands for. -/
def wordValue? (cs : List Char) : Option Value :=
  if cs = "true".toList then some (.bool true)
  else if cs = "false".toList then some (.bool false)
  else match integer? cs with
    | some i => some (.int i)
    | none =>
      match float? cs with
      | some x => some (.float x)
      | none => (moment? cs).map .text

end Parley.Toml
