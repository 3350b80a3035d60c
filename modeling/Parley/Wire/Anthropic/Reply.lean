import Parley.Wire.Completion
import Parley.Wire.Error

/-!
# Whole replies in the Anthropic format

A reply is a list of blocks.  The text of its text blocks is the body of the message, and every
block of type `tool_use` is a tool call, whose input becomes JSON text again.
-/

namespace Parley.Wire.Anthropic

open Chat (Message ToolCall)

/-- The input of a tool call as text. -/
def inputText : Json → String
  | .null => "\x7b\x7d"
  | v => v.print

/-- The text of a text block, and nothing of any other block. -/
def blockText (block : Json) : String :=
  if (block.member "type").str? = some "text" then (block.member "text").strOrEmpty else ""

/-- The tool call of a block, if it is one. -/
def blockCall? (block : Json) : Option ToolCall :=
  if (block.member "type").str? = some "tool_use" then
    some ⟨(block.member "id").strOrEmpty, (block.member "name").strOrEmpty,
      inputText (block.member "input")⟩
  else none

/-- The message of a list of blocks. -/
def messageOf (blocks : List Json) : Message :=
  { role := .assistant
    content := .plain (String.join (blocks.map blockText))
    toolCalls := blocks.filterMap blockCall? }

/-- The message of a reply. -/
def message (reply : Json) : Except Failure Message :=
  match (reply.get? "content").bind Json.items? with
  | none => .error (.missingField "content")
  | some blocks => .ok (messageOf blocks)

/-- The answer of a reply. -/
def completion (reply : Json) : Except Failure Completion := do
  let message ← message reply
  let report := reply.member "usage"
  return ⟨message, (reply.get? "stop_reason").bind Json.str?,
    .ofCounts (Usage.count? report "input_tokens") (Usage.count? report "output_tokens") none⟩

end Parley.Wire.Anthropic
