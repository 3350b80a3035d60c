import Parley.Wire.Completion
import Parley.Wire.Error

/-!
# Whole replies in the Ollama format

A chat reply holds a message object and, beside it, why the model stopped and the token counts.
`messageOf` reads such an object with a body of its own, because a streamed reply has the body in
pieces.
-/

namespace Parley.Wire.Ollama

open Chat (Message ToolCall)
open Floating (Single)

/-- Arguments as text. -/
def argumentText : Json → String
  | .str s => s
  | .null => "\x7b\x7d"
  | v => v.print

/-- A tool call of a message object. -/
def callOf (v : Json) : ToolCall :=
  let function := v.member "function"
  ⟨(v.member "id").strOrEmpty, (function.member "name").strOrEmpty,
    argumentText (function.member "arguments")⟩

/-- The message of a message object, with a text as its body. -/
def messageOf (body : Json) (text : String) : Message :=
  { role := .assistant
    content := .plain text
    toolCalls := ((body.member "tool_calls").items?.getD []).map callOf }

/-- Why the model stopped. -/
def finishReason? (reply : Json) : Option String := (reply.get? "done_reason").bind Json.str?

/-- The token counts of a reply. -/
def usage (reply : Json) : Usage :=
  .ofCounts (Usage.count? reply "prompt_eval_count") (Usage.count? reply "eval_count") none

/-- The error that a reply reports as a text. -/
def errorText? (reply : Json) : Option String := (reply.get? "error").bind Json.str?

/-- The answer of a chat reply. -/
def completion (reply : Json) : Except Failure Completion :=
  match errorText? reply with
  | some text => .error (.api text)
  | none =>
    match (reply.get? "message").filter Json.isObject with
    | none => .error (.missingField "message")
    | some body =>
      .ok ⟨messageOf body (body.member "content").strOrEmpty, finishReason? reply,
        usage reply⟩

/-- The vectors of an embedding reply. -/
def embeddings (reply : Json) : Except Failure (List (List Single)) :=
  match (reply.get? "embeddings").bind Json.items? with
  | none => .error (.missingField "embeddings")
  | some items => .ok (items.map Single.listOfJson)

end Parley.Wire.Ollama
