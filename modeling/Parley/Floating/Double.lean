import Parley.Floating.Single
import Parley.Text.Digits
import Parley.Word

/-!
# Doubles that need not be finite

A `Double` is a finite value, an infinity or no number at all.  `Double.ofText?` reads one from
decimal text, rounded once and to nearest, and `Double.text` writes one without an exponent.
-/

namespace Parley.Floating

/-- A number in double precision. -/
inductive Double where
  /-- A finite value. -/
  | finite (x : Binary)
  /-- A value beyond the range, with its sign. -/
  | infinite (negative : Bool)
  /-- No number. -/
  | nan
deriving DecidableEq, Repr

namespace Double

/-! ### Reading -/

/-- The double nearest to a decimal.  An exponent far outside the range is not worked out: with `n`
digits the value lies between `10 ^ exponent` and `10 ^ (exponent + n)`. -/
def ofDecimal (negative : Bool) (digits : Nat) (exponent : Int) : Double :=
  let size := exponent + (Nat.toDigits 10 digits).length
  if digits = 0 ∨ size < -400 then .finite (binary64.zero negative)
  else if 400 < size then .infinite negative
  else match binary64.ofDecimal negative digits exponent with
    | some x => .finite x
    | none => .infinite negative

/-- The exponent of a text: nothing, or an integer behind the mark. -/
def exponentOf? : List Char → Option Int
  | [] => some 0
  | c :: rest => if c = 'e' || c = 'E' then Text.integer? rest else none

/-- The value of digits, perhaps with a point among them, and an exponent.  One digit must be
there. -/
def ofDigits? (negative : Bool) (cs : List Char) : Option Double := do
  let whole := cs.takeWhile Char.isDigit
  let rest := cs.dropWhile Char.isDigit
  let (fraction, rest) := match rest with
    | '.' :: rest => (rest.takeWhile Char.isDigit, rest.dropWhile Char.isDigit)
    | rest => ([], rest)
  let digits ← Text.numeral? 10 (whole ++ fraction)
  return ofDecimal negative digits ((← exponentOf? rest) - fraction.length)

/-- The value of a text: a decimal, infinity or no number, in whatever case and with an optional
sign. -/
def ofText? (cs : List Char) : Option Double :=
  let (negative, body) := Text.signed cs
  let word := String.ofList (body.map Char.toLower)
  if word = "inf" ∨ word = "infinity" then some (.infinite negative)
  else if word = "nan" then some .nan
  else ofDigits? negative body

/-! ### Writing and conversions -/

/-- The text of a double. -/
def text : Double → String
  | .finite x => String.ofList (Layout.prose.render binary64 x)
  | .infinite negative => if negative then "-inf" else "inf"
  | .nan => "NaN"

/-- The double nearest to an integer of at most 64 bits. -/
def ofInt (i : Int) : Double :=
  match binary64.ofInt i with
  | some x => .finite x
  | none => .infinite (decide (i < 0))

/-- The value in single precision. -/
def toSingle : Double → Single
  | .finite x => .ofDouble x
  | .infinite negative => .infinite negative
  | .nan => .nan

/-- The nearest natural number of 64 bits, the larger of two.  What lies outside their range becomes
its nearer end. -/
def toWord : Double → Nat
  | .finite x =>
    let (num, den) := x.ratio
    if x.negative then 0 else min ((2 * num + den) / (2 * den)) (Word.count 64 - 1)
  | .infinite negative => if negative then 0 else Word.count 64 - 1
  | .nan => 0

end Double

end Parley.Floating
