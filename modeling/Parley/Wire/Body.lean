import Parley.Text.Blank
import Parley.Text.Pieces
import Parley.Text.Utf8
import Parley.Wire.Error

/-!
# The body of a reply

A `Body` arrives in portions, and the connection may break within it.  It can be taken as a whole,
as text or as JSON, or line by line: `Body.lines` are the lines as they are completed, and then the
failure if there is one.  A line ends at a line feed; what follows the last one is a line when it is
not empty and the body is complete.

Where the portions are cut does not matter (`Body.lines_eq`): the lines are a function of the bytes.
-/

namespace Parley.Wire

open Text (Splitter)

/-- A body, as it was received. -/
structure Body where
  /-- The bytes, portion by portion. -/
  portions : List (List UInt8)
  /-- What ended the connection before the body was complete. -/
  failure? : Option TransportFailure := none
deriving DecidableEq

namespace Body

/-- A complete body in one portion. -/
def ofBytes (bytes : List UInt8) : Body := ⟨[bytes], none⟩

/-- All bytes that were received. -/
def bytes (b : Body) : List UInt8 := b.portions.flatten

/-! ### As a whole -/

/-- The body as text, with replacement characters for what is not UTF-8. -/
def text (b : Body) : Except TransportFailure String :=
  match b.failure? with
  | some f => .error f
  | none => .ok (Text.Utf8.decodeLossy b.bytes)

/-- The body as JSON. -/
def json (b : Body) : Except TransportFailure Json :=
  match b.failure? with
  | some f => .error f
  | none =>
    match Text.Utf8.decode? b.bytes with
    | none => .error .notText
    | some s =>
      match Json.parse s with
      | .ok v => .ok v
      | .error e => .error (.notJson e)

/-! ### Line by line -/

/-- The end mark of a line. -/
def isLineFeed (b : UInt8) : Bool := b == 10

/-- The text of the bytes of a line, without carriage returns and line feeds at its end. -/
def lineText (bytes : List UInt8) : String :=
  String.ofList
    (Text.dropEndWhile (fun c => c = '\r' || c = '\n') (Text.Utf8.decodeLossy bytes).toList)

/-- The splitter after all portions. -/
def split (b : Body) : Splitter UInt8 :=
  b.portions.foldl (fun s portion => s.feed isLineFeed portion) {}

/-- The lines of a body as they come, with the failure behind them if there is one. -/
def lines (b : Body) : List (Except Failure String) :=
  let s := b.split
  let completed := s.closed.map fun line => .ok (lineText line)
  match b.failure? with
  | some f => completed ++ [.error (.transport f)]
  | none => if s.underWay.isEmpty then completed else completed ++ [.ok (lineText s.underWay)]

theorem foldl_feed (portions : List (List UInt8)) (s : Splitter UInt8) :
    portions.foldl (fun s portion => s.feed isLineFeed portion) s
      = s.feed isLineFeed portions.flatten := by
  induction portions generalizing s with
  | nil => rfl
  | cons p ps ih => simp [ih, Splitter.feed_append]

/-- **Portions do not matter.**  The lines are those of the same bytes in one portion. -/
theorem lines_eq (b : Body) : b.lines = lines ⟨[b.bytes], b.failure?⟩ := by
  simp [lines, split, foldl_feed, bytes]

end Body

end Parley.Wire
