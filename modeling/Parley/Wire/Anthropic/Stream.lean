import Parley.Wire.Anthropic.Reply
import Parley.Wire.Assembly

/-!
# Streamed replies in the Anthropic format

Each line `data: ...` holds an event; its type stands in the event or, failing that, on a line
`event: ...` before it.  An answer is a list of blocks, each of which is started, grows by deltas
and is known by its index.  `BlockParts` is what has come of a block, and the blocks are kept in
ascending order of index.
-/

namespace Parley.Wire.Anthropic

open Chat (Message ToolCall)

/-! ### Blocks in pieces -/

/-- What has come of a block. -/
inductive BlockParts where
  /-- A text. -/
  | text (text : String)
  /-- A tool call: its id and name, the input it was started with and the JSON text that came
  since. -/
  | toolUse (id name : String) (input : Json) (json : String)
deriving DecidableEq, Repr

namespace BlockParts

/-- The block that an event starts. -/
def ofStart (block : Json) : BlockParts :=
  if (block.member "type").str? = some "tool_use" then
    .toolUse (block.member "id").strOrEmpty (block.member "name").strOrEmpty
      (block.member "input") ""
  else .text (block.member "text").strOrEmpty

/-- The text of a text block. -/
def textPart : BlockParts → String
  | .text t => t
  | .toolUse .. => ""

/-- The tool call of a block.  The text that came since the start counts unless it is blank. -/
def call? : BlockParts → Option ToolCall
  | .text _ => none
  | .toolUse id name input json =>
    some ⟨id, name, if Text.allBlank json then inputText input else json⟩

end BlockParts

/-- The block with an index. -/
def blockAt? (index : Nat) (blocks : List (Nat × BlockParts)) : Option BlockParts :=
  blocks.lookup index

/-- Put a block at its index, where it replaces another. -/
def putBlock (index : Nat) (block : BlockParts) :
    List (Nat × BlockParts) → List (Nat × BlockParts)
  | [] => [(index, block)]
  | (i, b) :: rest =>
    if index < i then (index, block) :: (i, b) :: rest
    else if index = i then (index, block) :: rest
    else (i, b) :: putBlock index block rest

/-! ### The machine -/

/-- What has come of an answer. -/
structure Partial where
  /-- The event type that was announced on a line of its own. -/
  announced? : Option String := none
  /-- The blocks by index, in ascending order. -/
  blocks : List (Nat × BlockParts) := []
  /-- Why the model stopped. -/
  finishReason? : Option String := none
  /-- Tokens of the history. -/
  inputTokens? : Option Int32 := none
  /-- Tokens of the answer. -/
  outputTokens? : Option Int32 := none
  /-- Whether the end mark has come. -/
  isDone : Bool := false
deriving DecidableEq, Repr

namespace Partial

/-- The index that an event names. -/
def indexOf (event : Json) : Nat := ((event.member "index").nat64?).getD 0

/-- Take a piece of text.  A text block that was not started begins with it. -/
def takeText (p : Partial) (index : Nat) (text : String) :
    Except Failure (Option String × Partial) :=
  let delta? := if text.isEmpty then none else some text
  match (blockAt? index p.blocks).getD (.text "") with
  | .text t => .ok (delta?, { p with blocks := putBlock index (.text (t ++ text)) p.blocks })
  | .toolUse .. => .error (.stream ("text delta for tool_use block " ++ toString index))

/-- Take a piece of the JSON text of a tool call, which must have been started. -/
def takeJson (p : Partial) (index : Nat) (piece : String) :
    Except Failure (Option String × Partial) :=
  match blockAt? index p.blocks with
  | some (.toolUse id name input json) =>
    .ok (none, { p with
      blocks := putBlock index (.toolUse id name input (json ++ piece)) p.blocks })
  | _ => .error (.stream ("input_json_delta for unknown tool_use block " ++ toString index))

/-- Take an event of a type. -/
def takeEvent (p : Partial) (type : String) (event : Json) :
    Except Failure (Option String × Partial) :=
  match type with
  | "message_start" =>
    let report := (event.member "message").member "usage"
    .ok (none, { p with inputTokens? := Usage.count? report "input_tokens" })
  | "content_block_start" =>
    let block := BlockParts.ofStart (event.member "content_block")
    .ok (none, { p with blocks := putBlock (indexOf event) block p.blocks })
  | "content_block_delta" =>
    let delta := event.member "delta"
    match (delta.member "type").str? with
    | some "text_delta" => p.takeText (indexOf event) (delta.member "text").strOrEmpty
    | some "input_json_delta" => p.takeJson (indexOf event) (delta.member "partial_json").strOrEmpty
    | _ => .ok (none, p)
  | "message_delta" =>
    let reason? := ((event.member "delta").member "stop_reason").str?
    let tokens? := Usage.count? (event.member "usage") "output_tokens"
    .ok (none, { p with finishReason? := reason?.or p.finishReason?
                        outputTokens? := tokens?.or p.outputTokens? })
  | "message_stop" => .ok (none, { p with isDone := true })
  | "error" =>
    let text? := ((event.member "error").member "message").str?
    .error (.api (text?.getD "unknown stream error"))
  | _ => .ok (none, p)

/-- The event type that a line announces. -/
def announcement? (line : String) : Option String :=
  (Text.after? "event:" (Text.trimEnd line)).map Text.trim

/-- Take a line. -/
def feed (p : Partial) (line : String) : Except Failure (Option String × Partial) :=
  match announcement? line with
  | some type => .ok (none, { p with announced? := some type })
  | none =>
    match dataOf? line with
    | none => .ok (none, p)
    | some data =>
      match Json.parse data with
      | .error e => .error (.json e)
      | .ok event =>
        let type := ((event.member "type").str?.or p.announced?).getD ""
        { p with announced? := none }.takeEvent type event

/-- The message of the blocks that came, in ascending order of index. -/
def message (p : Partial) : Message :=
  { role := .assistant
    content := .plain (String.join (p.blocks.map (·.2.textPart)))
    toolCalls := p.blocks.filterMap (·.2.call?) }

/-- The answer.  A stream that ends without end mark is broken. -/
def finish (p : Partial) : Except Failure Completion :=
  if p.isDone then
    .ok ⟨p.message, p.finishReason?, .ofCounts p.inputTokens? p.outputTokens? none⟩
  else .error (.stream "stream closed before message_stop")

end Partial

/-- The machine for streamed replies. -/
def assembly : Assembly Partial := ⟨{}, Partial.feed, Partial.isDone, Partial.finish⟩

end Parley.Wire.Anthropic
