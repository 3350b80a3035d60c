import Parley.Wire.Completion
import Parley.Wire.Error

/-!
# Whole replies in the OpenAI format

`completion` reads a chat reply, `embeddings` the vectors of an embedding reply in the order of the
texts, and `scores` the scores of a ranking reply in the order of the documents.
-/

namespace Parley.Wire.OpenAi

open Chat (Message ToolCall)
open Floating (Single)

/-! ### Messages -/

/-- Arguments as text.  Some services send the object itself. -/
def argumentText : Json → String
  | .str s => s
  | .null => ""
  | v => v.print

/-- A tool call of a reply. -/
def callOf (v : Json) : ToolCall :=
  let function := v.member "function"
  ⟨(v.member "id").strOrEmpty, (function.member "name").strOrEmpty,
    argumentText (function.member "arguments")⟩

/-- The message of a message object: the text of its body, if it is a text, and its tool calls. -/
def messageOf (body : Json) : Message :=
  { content := .plain (body.member "content").strOrEmpty
    role := .assistant
    toolCalls := ((body.member "tool_calls").items?.getD []).map callOf }

/-- The message of a chat reply, and why the model stopped. -/
def message (reply : Json) : Except Failure (Message × Option String) :=
  match (reply.get? "choices").bind (·.item? 0) with
  | none => .error (.missingField "choices")
  | some choice =>
    match (choice.get? "message").filter Json.isObject with
    | none => .error (.missingField "message")
    | some body =>
      .ok (messageOf body, (choice.get? "finish_reason").bind Json.str?)

/-- The token counts of a reply. -/
def usage (reply : Json) : Usage :=
  match (reply.get? "usage").filter Json.isObject with
  | none => {}
  | some report =>
    .ofCounts (Usage.count? report "prompt_tokens") (Usage.count? report "completion_tokens")
      (Usage.count? report "total_tokens")

/-- The answer of a chat reply.  A reply with an error member reports a failure. -/
def completion (reply : Json) : Except Failure Completion :=
  match reply.get? "error" with
  | some error => .error (reportedFailure error)
  | none => do
    let (message, finishReason?) ← message reply
    return ⟨message, finishReason?, usage reply⟩

/-! ### Embeddings and scores -/

/-- The vectors of an embedding reply, in ascending order of index.  An entry without index has its
position as index, and entries of one index stay in their order. -/
def embeddings (reply : Json) : Except Failure (List (List Single)) :=
  match (reply.get? "data").bind Json.items? with
  | none => .error (.missingField "data")
  | some items =>
    let entries := items.zipIdx.map fun (item, position) =>
      (((item.member "index").nat64?).getD position, Single.listOfJson (item.member "embedding"))
    .ok ((entries.mergeSort (fun a b => a.1 ≤ b.1)).map (·.2))

/-- Put the score of one result in its place; an index beyond the documents has no place. -/
def putScore (scores : List Single) (result : Json) : Except Failure (List Single) :=
  match (result.member "index").nat64? with
  | none => .error (.missingField "index")
  | some index =>
    .ok (scores.set index ((Single.ofJson? (result.member "relevance_score")).getD .zero))

/-- The score of each document.  A document that no result names has score zero, and of several
results for one document the last counts. -/
def scores (reply : Json) (documents : List String) : Except Failure (List Single) :=
  match (reply.get? "results").bind Json.items? with
  | none => .error (.missingField "results")
  | some results => results.foldlM putScore (documents.map fun _ => .zero)

end Parley.Wire.OpenAi
