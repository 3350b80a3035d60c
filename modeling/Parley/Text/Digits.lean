/-!
# Numbers written in digits

The natural number that digits stand for in a base of at most sixteen.
-/

namespace Parley.Text

/-- The value of a digit in bases up to 16. -/
def digitValue? (base : Nat) (c : Char) : Option Nat :=
  let n :=
    if c.isDigit then c.toNat - 48
    else if 'a' ≤ c ∧ c ≤ 'f' then c.toNat - 87
    else if 'A' ≤ c ∧ c ≤ 'F' then c.toNat - 55
    else base
  if n < base then some n else none

/-- The value of a list of digits; nothing at all is zero. -/
def number? (base : Nat) (cs : List Char) : Option Nat :=
  cs.foldlM (fun n c => (digitValue? base c).map (n * base + ·)) 0

/-- The value of at least one digit. -/
def numeral? (base : Nat) (cs : List Char) : Option Nat :=
  if cs.isEmpty then none else number? base cs

/-- A sign in front of something, if there is one: whether it is a minus, and what follows. -/
def signed : List Char → Bool × List Char
  | '-' :: rest => (true, rest)
  | '+' :: rest => (false, rest)
  | cs => (false, cs)

/-- The integer that digits behind an optional sign stand for. -/
def integer? (cs : List Char) : Option Int :=
  let (negative, digits) := signed cs
  (numeral? 10 digits).map fun n => if negative then -n else n

end Parley.Text
