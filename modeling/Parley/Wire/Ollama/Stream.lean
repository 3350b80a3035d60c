import Parley.Wire.Assembly
import Parley.Wire.Ollama.Reply

/-!
# Streamed replies in the Ollama format

Every line is a JSON object.  Text comes in pieces, tool calls come whole: the last message object
that has any is the base of the answer, and without one the last message object at all.  The line
whose `done` is true ends the stream and holds the token counts.
-/

namespace Parley.Wire.Ollama

open Chat (Message)

/-- What has come of an answer. -/
structure Partial where
  /-- The text. -/
  text : String := ""
  /-- The last message object with tool calls. -/
  base? : Option Json := none
  /-- The last message object. -/
  last? : Option Json := none
  /-- Why the model stopped. -/
  finishReason? : Option String := none
  /-- The token counts. -/
  usage : Usage := {}
  /-- Whether the end mark has come. -/
  isDone : Bool := false
deriving DecidableEq, Repr

namespace Partial

/-- Whether a message object has tool calls. -/
def hasCalls (message : Json) : Bool := !((message.member "tool_calls").items?.getD []).isEmpty

/-- Take a message object. -/
def takeMessage (p : Partial) (message : Json) : Option String × Partial :=
  let p := { p with base? := if hasCalls message then some message else p.base?
                    last? := some message }
  match (message.member "content").str?.filter (!·.isEmpty) with
  | some text => (some text, { p with text := p.text ++ text })
  | none => (none, p)

/-- Take a chunk that reports no error. -/
def takeChunk (p : Partial) (chunk : Json) : Option String × Partial :=
  let (delta?, p) := match (chunk.get? "message").filter Json.isObject with
    | some message => p.takeMessage message
    | none => (none, p)
  if (chunk.member "done").bool?.getD false then
    (delta?, { p with isDone := true, finishReason? := Ollama.finishReason? chunk
                      usage := Ollama.usage chunk })
  else (delta?, p)

/-- Take a line. -/
def feed (p : Partial) (line : String) : Except Failure (Option String × Partial) :=
  let line := Text.trim line
  if line.isEmpty then .ok (none, p)
  else match Json.parse line with
    | .error e => .error (.json e)
    | .ok chunk =>
      match errorText? chunk with
      | some text => .error (.api text)
      | none => .ok (p.takeChunk chunk)

/-- The answer.  A stream that ends without end mark is broken. -/
def finish (p : Partial) : Except Failure Completion :=
  if p.isDone then
    match p.base?.or p.last? with
    | none => .error (.missingField "message")
    | some base => .ok ⟨messageOf base p.text, p.finishReason?, p.usage⟩
  else .error (.stream "stream closed before done")

end Partial

/-- The machine for streamed replies. -/
def assembly : Assembly Partial := ⟨{}, Partial.feed, Partial.isDone, Partial.finish⟩

end Parley.Wire.Ollama
