import Parley.Wire.Completion
import Parley.Wire.Error

/-!
# Replies in the Gemini format

The first candidate of a reply is the answer.  The texts of its parts make up the body of the
message, and its function calls the tool calls; a candidate that was withheld has no parts.
-/

namespace Parley.Wire.Gemini

open Chat (Message ToolCall)
open Floating (Single)

/-- Arguments as text. -/
def argumentText : Json → String
  | .null => "\x7b\x7d"
  | v => v.print

/-- The tool call of a part, if it is one. -/
def partCall? (part : Json) : Option ToolCall :=
  (part.get? "functionCall").map fun call =>
    ⟨(call.member "id").strOrEmpty, (call.member "name").strOrEmpty,
      argumentText (call.member "args")⟩

/-- The message of a list of parts. -/
def messageOf (parts : List Json) : Message :=
  { role := .assistant
    content := .plain (String.join (parts.map fun part => (part.member "text").strOrEmpty))
    toolCalls := parts.filterMap partCall? }

/-- The message of a reply, and why the model stopped. -/
def message (reply : Json) : Except Failure (Message × Option String) :=
  match (reply.get? "candidates").bind (·.item? 0) with
  | none => .error (.missingField "candidates")
  | some candidate =>
    .ok (messageOf (((candidate.member "content").member "parts").items?.getD []),
      (candidate.get? "finishReason").bind Json.str?)

/-- The token counts of a reply. -/
def usage (reply : Json) : Usage :=
  let report := reply.member "usageMetadata"
  .ofCounts (Usage.count? report "promptTokenCount") (Usage.count? report "candidatesTokenCount")
    (Usage.count? report "totalTokenCount")

/-- The answer of a reply. -/
def completion (reply : Json) : Except Failure Completion := do
  let (message, finishReason?) ← message reply
  return ⟨message, finishReason?, usage reply⟩

/-- The vectors of an embedding reply. -/
def embeddings (reply : Json) : Except Failure (List (List Single)) :=
  match (reply.get? "embeddings").bind Json.items? with
  | none => .error (.missingField "embeddings")
  | some items => .ok (items.map fun item => Single.listOfJson (item.member "values"))

end Parley.Wire.Gemini
