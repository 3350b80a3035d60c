import Parley.Wire.Body
import Parley.Wire.Completion

/-!
# Putting a streamed reply together

An `Assembly` is a machine over the lines of a reply: it takes one line at a time, may answer with a
piece of text, knows when it is done, and at the end yields the whole answer.  `Assembly.chunks`
runs it over a body: the pieces of text as they come, and then one terminal item, which is the
answer or a failure.  Lines behind the one that ends the stream are not looked at.
-/

namespace Parley.Wire

/-- A machine that puts a streamed reply together. -/
structure Assembly (σ : Type) where
  /-- The state before the first line. -/
  start : σ
  /-- Take a line, which may carry a piece of text. -/
  feed : σ → String → Except Failure (Option String × σ)
  /-- Whether the end mark has come. -/
  isDone : σ → Bool
  /-- The whole answer. -/
  finish : σ → Except Failure Completion

namespace Assembly

variable {σ : Type}

/-- The items of a stream from a state on. -/
def chunksFrom (a : Assembly σ) (s : σ) : List (Except Failure String) → List (Except Failure Chunk)
  | [] => [(a.finish s).map .done]
  | .error e :: _ => [.error e]
  | .ok line :: rest =>
    match a.feed s line with
    | .error e => [.error e]
    | .ok (delta?, s) =>
      let tail := if a.isDone s then [(a.finish s).map .done] else chunksFrom a s rest
      match delta? with
      | some delta => .ok (.delta delta) :: tail
      | none => tail

/-- The items of a streamed reply. -/
def chunks (a : Assembly σ) (body : Body) : List (Except Failure Chunk) :=
  a.chunksFrom a.start body.lines

/-- Feed lines one after the other, whether or not the end mark has come. -/
def feedAll (a : Assembly σ) (s : σ) : List String → Except Failure σ
  | [] => .ok s
  | line :: rest =>
    match a.feed s line with
    | .error e => .error e
    | .ok (_, s) => a.feedAll s rest

end Assembly

/-- The payload of a line of an event stream: what follows `data:`, without blanks around it.  Blank
lines, comments and other fields have none. -/
def dataOf? (line : String) : Option String :=
  let line := Text.trimEnd line
  if line.isEmpty || line.toList.head? = some ':' then none
  else (Text.after? "data:" line).map Text.trim

end Parley.Wire
