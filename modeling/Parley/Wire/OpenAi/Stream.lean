import Parley.Wire.Assembly
import Parley.Wire.OpenAi.Reply

/-!
# Streamed replies in the OpenAI format

Each line `data: ...` holds a part of the answer; the line `data: [DONE]` ends it.  Text comes in
pieces.  A tool call comes in fragments that name its index: usually the first holds its id and
name, and the text of its arguments is spread over the others.  `CallParts` collects the fragments
of one call, and the calls are kept in ascending order of index, where indices without a fragment
have no entry.
-/

namespace Parley.Wire.OpenAi

open Chat (Message ToolCall)

/-! ### Tool calls in fragments -/

/-- What has come of one tool call. -/
structure CallParts where
  /-- The id. -/
  id : String := ""
  /-- The name. -/
  name : String := ""
  /-- The text of the arguments. -/
  arguments : String := ""
deriving DecidableEq, Repr

namespace CallParts

/-- Take a part of the name.  Some services send the whole name again with every fragment, so a part
that begins with the name so far replaces it. -/
def takeName (parts : CallParts) (name : String) : CallParts :=
  if parts.name.toList.isPrefixOf name.toList then { parts with name }
  else { parts with name := parts.name ++ name }

/-- Take a fragment. -/
def take (parts : CallParts) (fragment : Json) : CallParts :=
  let parts := match (fragment.member "id").str?.filter (!·.isEmpty) with
    | some id => { parts with id }
    | none => parts
  let function := fragment.member "function"
  let parts := match (function.member "name").str? with
    | some name => parts.takeName name
    | none => parts
  match (function.member "arguments").str? with
  | some text => { parts with arguments := parts.arguments ++ text }
  | none => parts

/-- Whether the fragments held anything to call. -/
def isCall (parts : CallParts) : Bool := !parts.name.isEmpty || !parts.arguments.isEmpty

/-- The tool call. -/
def toCall (parts : CallParts) : ToolCall := ⟨parts.id, parts.name, parts.arguments⟩

end CallParts

/-- Give a fragment to the call with an index. -/
def takeAt (index : Nat) (fragment : Json) :
    List (Nat × CallParts) → List (Nat × CallParts)
  | [] => [(index, CallParts.take {} fragment)]
  | (i, parts) :: rest =>
    if index < i then (index, CallParts.take {} fragment) :: (i, parts) :: rest
    else if index = i then (i, parts.take fragment) :: rest
    else (i, parts) :: takeAt index fragment rest

/-- Give a fragment to the call it names; a fragment without index belongs to the first call. -/
def takeFragment (calls : List (Nat × CallParts)) (fragment : Json) : List (Nat × CallParts) :=
  takeAt (((fragment.member "index").nat64?).getD 0) fragment calls

/-! ### The machine -/

/-- What has come of an answer. -/
structure Partial where
  /-- The text. -/
  text : String := ""
  /-- The tool calls by index, in ascending order. -/
  calls : List (Nat × CallParts) := []
  /-- Why the model stopped. -/
  finishReason? : Option String := none
  /-- The token counts. -/
  usage : Usage := {}
  /-- Whether the end mark has come. -/
  isDone : Bool := false
deriving DecidableEq, Repr

namespace Partial

/-- Take the delta of a chunk. -/
def takeDelta (p : Partial) (delta : Json) : Option String × Partial :=
  let p :=
    { p with calls := ((delta.member "tool_calls").items?.getD []).foldl takeFragment p.calls }
  match (delta.member "content").str?.filter (!·.isEmpty) with
  | some text => (some text, { p with text := p.text ++ text })
  | none => (none, p)

/-- Take the parts of a chunk that is no error. -/
def takeChunk (p : Partial) (chunk : Json) : Option String × Partial :=
  let p := if (chunk.member "usage").isObject then { p with usage := OpenAi.usage chunk } else p
  let choice := (chunk.member "choices").nth 0
  let p := match (choice.member "finish_reason").str? with
    | some reason => { p with finishReason? := some reason }
    | none => p
  p.takeDelta (choice.member "delta")

/-- Take a line. -/
def feed (p : Partial) (line : String) : Except Failure (Option String × Partial) :=
  match dataOf? line with
  | none => .ok (none, p)
  | some "[DONE]" => .ok (none, { p with isDone := true })
  | some data =>
    match Json.parse data with
    | .error e => .error (.json e)
    | .ok chunk =>
      match chunk.present? "error" with
      | some error => .error (reportedFailure error)
      | none => .ok (p.takeChunk chunk)

/-- The tool calls that came, in ascending order of index. -/
def toolCalls (p : Partial) : List ToolCall :=
  (p.calls.filter (·.2.isCall)).map (·.2.toCall)

/-- The answer.  A stream that ends without end mark and without a reason to stop is broken. -/
def finish (p : Partial) : Except Failure Completion :=
  if !p.isDone && p.finishReason?.isNone then .error (.stream "stream closed before [DONE]")
  else
    .ok ⟨{ role := .assistant, content := .plain p.text, toolCalls := p.toolCalls },
      p.finishReason?, p.usage⟩

end Partial

/-- The machine for streamed replies. -/
def assembly : Assembly Partial := ⟨{}, Partial.feed, Partial.isDone, Partial.finish⟩

end Parley.Wire.OpenAi
