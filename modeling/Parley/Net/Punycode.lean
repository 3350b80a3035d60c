/-!
# Labels beyond ASCII

A label of a domain name that is not ASCII is written in ASCII letters, digits and hyphens: the
ASCII characters of the label, and then, for all others in ascending order, how far a counter runs
between one insertion and the next.  The counter's steps are numbers in base 36 with digits of
varying weight (`digits`), whose thresholds adapt to the steps so far (`adapt`).
-/

namespace Parley.Net.Punycode

/-- A digit in base 36. -/
def digit (d : Nat) : Char := if d < 26 then Char.ofNat (97 + d) else Char.ofNat (22 + d)

/-- The threshold at a place of a number. -/
def threshold (place bias : Nat) : Nat :=
  if place ≤ bias then 1 else if bias + 26 ≤ place then 26 else place - bias

theorem one_le_threshold (place bias : Nat) : 1 ≤ threshold place bias := by
  unfold threshold; split <;> (try split) <;> omega

/-- A step of the counter as digits, from a place on. -/
def digits (bias place n : Nat) : List Char :=
  let t := threshold place bias
  if n < t then [digit n]
  else digit (t + (n - t) % (36 - t)) :: digits bias (place + 36) ((n - t) / (36 - t))
termination_by n
decreasing_by
  have h₁ := one_le_threshold place bias
  have h₂ := Nat.div_le_self (n - threshold place bias) (36 - threshold place bias)
  omega

/-- Scale a step down until it is small. -/
def scale (delta k : Nat) : Nat × Nat :=
  if 455 < delta then scale (delta / 35) (k + 36) else (delta, k)
termination_by delta
decreasing_by exact Nat.div_lt_self (by omega) (by omega)

/-- The bias after a step; `count` characters are in place then. -/
def adapt (delta count : Nat) (first : Bool) : Nat :=
  let delta := if first then delta / 700 else delta / 2
  let (delta, k) := scale (delta + delta / count) 0
  k + 36 * delta / (delta + 38)

/-- The counter between two insertions. -/
structure Counter where
  /-- How far it has run since the last insertion. -/
  delta : Nat := 0
  /-- The bias of the thresholds. -/
  bias : Nat := 72
  /-- How many characters are in place. -/
  handled : Nat
  /-- What has been written, the last first. -/
  written : List Char := []

/-- Pass the characters of a label once, where those with code `n` are inserted. -/
def pass (basic n : Nat) (c : Counter) : List Nat → Counter
  | [] => c
  | cp :: rest =>
    if cp < n then pass basic n { c with delta := c.delta + 1 } rest
    else if cp = n then
      pass basic n
        { delta := 0
          bias := adapt c.delta (c.handled + 1) (c.handled == basic)
          handled := c.handled + 1
          written := (digits c.bias 36 c.delta).reverse ++ c.written } rest
    else pass basic n c rest

/-- Insert the characters with the given codes, which ascend, beginning with a counter at `n`. -/
def insertAll (basic n : Nat) (label : List Nat) (c : Counter) : List Nat → Counter
  | [] => c
  | m :: rest =>
    let c := pass basic m { c with delta := c.delta + (m - n) * (c.handled + 1) } label
    insertAll basic (m + 1) label { c with delta := c.delta + 1 } rest

/-- The written form of a label. -/
def encode (label : List Char) : List Char :=
  let ascii := label.filter (·.val < 0x80)
  let codes := label.map Char.toNat
  let others := ((codes.filter (0x80 ≤ ·)).mergeSort (· ≤ ·)).eraseDups
  let c := insertAll ascii.length 0x80 codes { handled := ascii.length } others
  (if ascii.isEmpty then [] else ascii ++ ['-']) ++ c.written.reverse

end Parley.Net.Punycode
