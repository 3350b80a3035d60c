import Parley.Chat.Message
import Parley.Floating.Single

/-!
# What a model call takes and gives

A model call takes a history, a list of tools and `Options`, and gives a `Completion`: the
assistant's message, why the model stopped, and how many tokens it counted.  A streamed call gives
`Chunk`s: pieces of text and then the same completion.

Token counts are signed words of 32 bits, and so is the total that `Usage.ofCounts` fills in where
the model reports only the parts.
-/

namespace Parley.Wire

open Chat (Message ToolChoice)
open Floating (Single)

/-! ### Token counts -/

/-- How many tokens a call took. -/
structure Usage where
  /-- Tokens of the history. -/
  input? : Option Int32 := none
  /-- Tokens of the answer. -/
  output? : Option Int32 := none
  /-- All tokens. -/
  total? : Option Int32 := none
deriving DecidableEq, Repr

namespace Usage

/-- The counts of a call.  A total that is not reported is the sum of the parts when both are. -/
def ofCounts (input? output? total? : Option Int32) : Usage :=
  ⟨input?, output?, total?.or (do return (← input?) + (← output?))⟩

/-- A count that a report holds under a name: an integer of 64 bits, of which the lower 32 are
kept. -/
def count? (report : Json) (name : String) : Option Int32 :=
  ((report.get? name).bind Json.int64?).map Int32.ofInt

/-- Counts as a value. -/
def toJson (u : Usage) : Json :=
  let count (n : Int32) : Json := .num (.int n.toInt)
  .object [("input_tokens", Json.ofOption count u.input?),
    ("output_tokens", Json.ofOption count u.output?),
    ("total_tokens", Json.ofOption count u.total?)]

end Usage

/-! ### Calls and answers -/

/-- What a call asks for beyond its history and tools. -/
structure Options where
  /-- Which tools the model may pick. -/
  toolChoice : ToolChoice := .auto
  /-- How freely the model is to answer. -/
  temperature? : Option Single := none
deriving DecidableEq, Repr

/-- A finished answer. -/
structure Completion where
  /-- The assistant's message. -/
  message : Message
  /-- Why the model stopped. -/
  finishReason? : Option String := none
  /-- How many tokens it counted. -/
  usage : Usage := {}
deriving DecidableEq, Repr

/-- A completion as a value. -/
def Completion.toJson (c : Completion) : Json :=
  .object [("message", c.message.toJson), ("finish_reason", Json.ofOption .str c.finishReason?),
    ("usage", c.usage.toJson)]

/-- An item of a streamed answer. -/
inductive Chunk where
  /-- A piece of the text. -/
  | delta (text : String)
  /-- The whole answer. -/
  | done (completion : Completion)
deriving DecidableEq, Repr

end Parley.Wire
