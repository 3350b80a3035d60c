/-!
# Words of a fixed size

How many words there are of a number of bits, and which numbers they hold: natural numbers (`holds`)
and integers in two's complement (`holdsSigned`).
-/

namespace Parley.Word

/-- The number of words of so many bits. -/
def count (bits : Nat) : Nat := Nat.pow 2 bits

/-- Whether a natural number fits a word. -/
def holds (bits n : Nat) : Bool := n < count bits

/-- Whether an integer fits a signed word. -/
def holdsSigned (bits : Nat) (i : Int) : Bool := -count (bits - 1) ≤ i && i < count (bits - 1)

end Parley.Word
