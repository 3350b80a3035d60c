/-!
# Binary floating point, computed exactly

A finite float is a sign, a significand and a power of two (`Binary`); a `Format` says how many bits
the significand may have and how far the exponent may go.  Every operation is one exact quotient of
natural numbers followed by one rounding, to nearest with ties to the even significand
(`Format.round`), so that nothing here depends on the machine's own arithmetic.

`binary64` and `binary32` are the two formats in use.  A result beyond the range of its format is
`none`.
-/

namespace Parley.Floating

/-! ### Formats and values -/

/-- How large significands and exponents may be. -/
structure Format where
  /-- The number of bits of a significand. -/
  precision : Nat
  /-- The least exponent: the last bit of the smallest values. -/
  minExponent : Int
  /-- The greatest exponent: the last bit of the largest values. -/
  maxExponent : Int

/-- Double precision. -/
def binary64 : Format := ⟨53, -1074, 971⟩

/-- Single precision. -/
def binary32 : Format := ⟨24, -149, 104⟩

/-- The number `significand * 2 ^ exponent` with a sign, which zero has too.

In a format the significand has all bits unless the exponent is the least one; zero has the least
exponent.  So a value of a format has one representation in it. -/
structure Binary where
  /-- Whether the sign is a minus. -/
  negative : Bool
  /-- The digits, as a natural number. -/
  significand : Nat
  /-- The weight of the last bit. -/
  exponent : Int
deriving DecidableEq, Repr, Inhabited

/-- Zero with a sign. -/
def Format.zero (f : Format) (negative : Bool) : Binary := ⟨negative, 0, f.minExponent⟩

/-! ### Rounding a quotient -/

/-- The quotient `num / (den * 2 ^ e)` as a numerator and a denominator. -/
def scaled (num den : Nat) (e : Int) : Nat × Nat :=
  if 0 ≤ e then (num, den <<< e.toNat) else (num <<< (-e).toNat, den)

/-- The natural number nearest to `num / den`, the even one of two. -/
def nearest (num den : Nat) : Nat :=
  let q := num / den
  let r := num % den
  if den < 2 * r || (den == 2 * r && q % 2 == 1) then q + 1 else q

/-- The exponent at which the floor of `num / (den * 2 ^ e)` has exactly `precision` bits, or the
format's least exponent where that is greater. -/
def Format.exponentFor (f : Format) (num den : Nat) : Int :=
  let e := (num.log2 : Int) - den.log2 - f.precision
  let (n, d) := scaled num den e
  max (if n / d < 1 <<< f.precision then e else e + 1) f.minExponent

/-- **Rounding.**  The value of the format nearest to `num / den`, where `den` is not zero. -/
def Format.round (f : Format) (negative : Bool) (num den : Nat) : Option Binary :=
  if num == 0 then some (f.zero negative)
  else
    let e := f.exponentFor num den
    let (n, d) := scaled num den e
    let q := nearest n d
    let (q, e) := if q == 1 <<< f.precision then (1 <<< (f.precision - 1), e + 1) else (q, e)
    if f.maxExponent < e then none else some ⟨negative, q, e⟩

/-! ### Operations -/

/-- A natural number with a sign, rounded into the format. -/
def Format.ofNat (f : Format) (negative : Bool) (n : Nat) : Option Binary := f.round negative n 1

/-- An integer rounded into the format. -/
def Format.ofInt (f : Format) (i : Int) : Option Binary := f.round (decide (i < 0)) i.natAbs 1

/-- A numerator and a denominator of the absolute value. -/
def Binary.ratio (x : Binary) : Nat × Nat :=
  if 0 ≤ x.exponent then (x.significand <<< x.exponent.toNat, 1)
  else (x.significand, 1 <<< (-x.exponent).toNat)

/-- A value carried over into another format. -/
def Format.convert (f : Format) (x : Binary) : Option Binary :=
  let (n, d) := x.ratio
  f.round x.negative n d

/-- The rounded product. -/
def Format.mul (f : Format) (x y : Binary) : Option Binary :=
  let (a, b) := x.ratio
  let (c, d) := y.ratio
  f.round (x.negative != y.negative) (a * c) (b * d)

/-- The rounded quotient by a value that is not zero. -/
def Format.div (f : Format) (x y : Binary) : Option Binary :=
  let (a, b) := x.ratio
  let (c, d) := y.ratio
  f.round (x.negative != y.negative) (a * d) (b * c)

/-- The power of ten nearest in the format. -/
def Format.tenPow (f : Format) (k : Nat) : Option Binary := f.ofNat false (Nat.pow 10 k)

/-- The value nearest to `digits * 10 ^ exponent`. -/
def Format.ofDecimal (f : Format) (negative : Bool) (digits : Nat) (exponent : Int) :
    Option Binary :=
  if 0 ≤ exponent then f.round negative (digits * Nat.pow 10 exponent.toNat) 1
  else f.round negative digits (Nat.pow 10 (-exponent).toNat)

end Parley.Floating
