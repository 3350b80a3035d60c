/-!
# Cutting texts into pieces

A `Splitter` cuts a sequence at every element that ends a piece.  It takes one element at a time, so
that it can be fed in portions of any size; `Splitter.closed` are the pieces that have ended and
`Splitter.underWay` is the piece still under way.  Splitting a text at a character (`splitOn`) and
into lines (`lines`) are both read off a splitter.

The other cuts are at a known beginning (`after?`), a known end (`before?`) and the first occurrence
of a character (`splitOnce?`), and `contains` asks for a text inside a text.
-/

namespace Parley.Text

/-! ### Pieces between end marks -/

/-- A sequence that is being cut.  Both fields are kept backwards, so that one more element is put
in front of them. -/
structure Splitter (α : Type) where
  /-- The pieces that have ended, the last first and each in its own order. -/
  closedBack : List (List α) := []
  /-- The elements since the last end mark, the last first. -/
  underWayBack : List α := []

namespace Splitter

variable {α : Type}

/-- Take one element, which either ends the piece under way or belongs to it. -/
def push (isEnd : α → Bool) (s : Splitter α) (x : α) : Splitter α :=
  if isEnd x then ⟨s.underWayBack.reverse :: s.closedBack, []⟩
    else ⟨s.closedBack, x :: s.underWayBack⟩

/-- Take a portion. -/
def feed (isEnd : α → Bool) (s : Splitter α) (xs : List α) : Splitter α := xs.foldl (push isEnd) s

/-- The pieces that have ended, in order and without their end marks. -/
def closed (s : Splitter α) : List (List α) := s.closedBack.reverse

/-- The piece under way. -/
def underWay (s : Splitter α) : List α := s.underWayBack.reverse

/-- How a sequence is cut into portions does not matter. -/
theorem feed_append (isEnd : α → Bool) (s : Splitter α) (xs ys : List α) :
    s.feed isEnd (xs ++ ys) = (s.feed isEnd xs).feed isEnd ys := by
  simp [feed, List.foldl_append]

end Splitter

/-- The pieces between the elements that satisfy `isEnd`, the last one included: one more than there
are such elements. -/
def split {α : Type} (isEnd : α → Bool) (xs : List α) : List (List α) :=
  let s := Splitter.feed isEnd {} xs
  s.closed ++ [s.underWay]

/-- The pieces of a text between the occurrences of a character. -/
def splitOn (mark : Char) (s : String) : List String :=
  (split (· == mark) s.toList).map String.ofList

/-- A line without the carriage return before its line feed. -/
def dropReturn (line : List Char) : List Char :=
  match line.reverse with
  | '\r' :: rest => rest.reverse
  | _ => line

/-- The lines of a text.  A line ends at a line feed, together with a carriage return before it;
what follows the last line feed is a line only when it is not empty. -/
def lines (s : String) : List String :=
  let p := Splitter.feed (· == '\n') {} s.toList
  let ended := p.closed.map dropReturn
  (if p.underWay.isEmpty then ended else ended ++ [p.underWay]).map String.ofList

/-! ### Other cuts -/

/-- What follows a known beginning. -/
def after? (start s : String) : Option String :=
  if start.toList.isPrefixOf s.toList then some (String.ofList (s.toList.drop start.length))
    else none

/-- What precedes a known end. -/
def before? (stop s : String) : Option String :=
  if stop.toList.isSuffixOf s.toList then
    some (String.ofList (s.toList.take (s.length - stop.length)))
  else none

/-- The parts before and after the first occurrence of a character. -/
def splitOnce? (mark : Char) (s : String) : Option (String × String) :=
  match s.toList.span (· != mark) with
  | (_, []) => none
  | (before, _ :: after) => some (String.ofList before, String.ofList after)

/-- Whether `inner` occurs in a sequence of characters. -/
def occursIn (inner : List Char) : List Char → Bool
  | [] => inner.isEmpty
  | c :: rest => inner.isPrefixOf (c :: rest) || occursIn inner rest

/-- Whether a text occurs inside another. -/
def contains (s inner : String) : Bool := occursIn inner.toList s.toList

/-- The parts before and after the first occurrence of a text. -/
def splitOnceAt (mark : List Char) (before : List Char) : List Char → Option (List Char × List Char)
  | [] => if mark.isEmpty then some (before.reverse, []) else none
  | c :: rest =>
    if mark.isPrefixOf (c :: rest) then some (before.reverse, (c :: rest).drop mark.length)
    else splitOnceAt mark (c :: before) rest

/-- The parts of a text before and after the first occurrence of another text. -/
def splitOnceText? (mark s : String) : Option (String × String) :=
  (splitOnceAt mark.toList [] s.toList).map fun (a, b) => (String.ofList a, String.ofList b)

/-- A sequence without the leading copies of a mark. -/
def dropCopies {α : Type} [BEq α] (mark xs : List α) : List α :=
  if _h : ¬ mark.isEmpty ∧ mark.isPrefixOf xs ∧ mark.length ≤ xs.length then
    dropCopies mark (xs.drop mark.length)
  else xs
termination_by xs.length
decreasing_by
  have := List.length_pos_iff.2 (by simpa using _h.1 : mark ≠ [])
  simp only [List.length_drop]; omega

/-- A text without the leading copies of another. -/
def withoutLeading (mark s : String) : String := String.ofList (dropCopies mark.toList s.toList)

/-- Texts one after the other with a separator between neighbours. -/
def join (separator : String) (texts : List String) : String := separator.intercalate texts

end Parley.Text
