import Parley.Floating.Binary

/-!
# The shortest decimal that reads back

`shortest f x` is the decimal with the fewest digits that rounds to the float `x` of the format `f`,
and of those the nearest to `x`.  The decimals that round to a float fill an interval around it,
with its ends when the significand is even.  On a grid of powers of ten the interval holds a point
exactly when it holds one of the two neighbours of `x`, so the search goes from coarse grids to fine
ones and stops at the first hit.

How the digits are then laid out is a `Layout`.
-/

namespace Parley.Floating

/-! ### The search -/

/-- A decimal: `digits * 10 ^ exponent`. -/
structure Decimal where
  /-- All digits, as a natural number. -/
  digits : Nat
  /-- The weight of the last digit. -/
  exponent : Int
deriving DecidableEq, Repr

/-- What rounds to one float, in units of a quarter of its last bit: the float itself lies at
`middle`, and the interval goes from `low` to `high`. -/
structure Interval where
  /-- The lower end. -/
  low : Nat
  /-- The float. -/
  middle : Nat
  /-- The upper end. -/
  high : Nat
  /-- Whether the ends belong to the interval. -/
  closed : Bool

/-- The interval of a float.  Below a power of two the neighbours lie closer. -/
def Format.interval (f : Format) (x : Binary) : Interval :=
  let m := x.significand
  let nearBelow := m == 1 <<< (f.precision - 1) && f.minExponent < x.exponent
  ⟨4 * m - (if nearBelow then 1 else 2), 4 * m, 4 * m + 2, m % 2 == 0⟩

/-- The point of the grid of step `10 ^ t` that lies in the interval, the nearer of two and the even
one of two equally near.  `e` is the exponent of a quarter of the float's last bit. -/
def Interval.gridPoint? (i : Interval) (e t : Int) : Option Nat :=
  let weight := Nat.pow 10 (-t).toNat <<< e.toNat
  let step := Nat.pow 10 t.toNat <<< (-e).toNat
  let low := i.low * weight
  let middle := i.middle * weight
  let high := i.high * weight
  let inside (c : Nat) : Bool :=
    if i.closed then low ≤ c * step && c * step ≤ high else low < c * step && c * step < high
  let c := middle / step
  if inside c then
    if inside (c + 1) then
      let below := middle - c * step
      let above := (c + 1) * step - middle
      if above < below || (above == below && c % 2 == 1) then some (c + 1) else some c
    else some c
  else if inside (c + 1) then some (c + 1)
  else none

/-- Go from the grid of step `10 ^ t` to finer ones, at most `fuel` of them. -/
def Interval.search (i : Interval) (e : Int) : Nat → Int → Decimal
  | 0, t => ⟨i.middle, t⟩
  | fuel + 1, t =>
    match i.gridPoint? e t with
    | some c => ⟨c, t⟩
    | none => i.search e fuel (t - 1)

/-- **Shortest digits.**  The decimal with the fewest digits that rounds to a float other than zero.
The first grid is coarser than the float is large, and seventeen digits below it always suffice. -/
def shortest (f : Format) (x : Binary) : Decimal :=
  let size := (x.significand.log2 : Int) + x.exponent + 2
  (f.interval x).search (x.exponent - 2) 24 (size * 30103 / 100000 + 1)

/-! ### Layout -/

/-- How the digits of a decimal are written. -/
structure Layout where
  /-- The exponents of the leading digit for which no exponent part is written. -/
  plain : Int → Bool
  /-- Whether a whole number without exponent part ends in `.0`. -/
  pointed : Bool

/-- The sign and digits of an exponent part. -/
def exponentPart (e : Int) : List Char :=
  'e' :: (if e < 0 then '-' else '+') :: Nat.toDigits 10 e.natAbs

/-- The text of a decimal without its sign. -/
def Layout.write (l : Layout) (d : Decimal) : List Char :=
  let digits := Nat.toDigits 10 d.digits
  let lead := d.exponent + digits.length - 1
  if l.plain lead then
    if 0 ≤ d.exponent then
      digits ++ List.replicate d.exponent.toNat '0' ++ (if l.pointed then ['.', '0'] else [])
    else if 0 ≤ lead then
      digits.take (lead + 1).toNat ++ '.' :: digits.drop (lead + 1).toNat
    else '0' :: '.' :: List.replicate (-lead - 1).toNat '0' ++ digits
  else
    match digits with
    | [] => []
    | c :: [] => c :: exponentPart lead
    | c :: rest => c :: '.' :: rest ++ exponentPart lead

/-- The text of a float of a format. -/
def Layout.render (l : Layout) (f : Format) (x : Binary) : List Char :=
  let body := if x.significand == 0 then '0' :: (if l.pointed then ['.', '0'] else [])
    else l.write (shortest f x)
  if x.negative then '-' :: body else body

/-- Numbers in running text have no exponent part and no needless fraction. -/
def Layout.prose : Layout := ⟨fun _ => true, false⟩

end Parley.Floating
