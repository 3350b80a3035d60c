import Parley.Chat.Content
import Parley.Chat.ToolCall

/-!
# Messages

A `Message` belongs to no vendor: it has a role, a body, the tool calls that an assistant made in it
and, for the result of a tool, the id of the call it answers.

`Message.normalizeIds` gives every tool call of a message an id that is not empty and unique within
it. Ids that serve already are kept, and a second run changes nothing.
-/

namespace Parley.Chat

/-- Who speaks. -/
inductive Role where
  | system
  | user
  | assistant
  | tool
deriving DecidableEq, Repr

/-- The name of a role. -/
def Role.name : Role → String
  | .system => "system"
  | .user => "user"
  | .assistant => "assistant"
  | .tool => "tool"

/-- The role with a name. -/
def Role.ofName? : String → Option Role
  | "system" => some .system
  | "user" => some .user
  | "assistant" => some .assistant
  | "tool" => some .tool
  | _ => none

/-- Every role has its name. -/
theorem Role.ofName?_name (r : Role) : Role.ofName? r.name = some r := by cases r <;> rfl

/-- A message of a conversation. -/
structure Message where
  /-- Who speaks. -/
  role : Role
  /-- What is said. -/
  content : Content := .empty
  /-- The tools that are to run. -/
  toolCalls : List ToolCall := []
  /-- The call that this message answers. -/
  toolCallId? : Option String := none
deriving DecidableEq, Repr

namespace Message

/-! ### Building messages -/

/-- Put a text behind the body. -/
def withText (m : Message) (text : String) : Message :=
  { m with content := m.content.extend (.plain text) }

/-- Put an image behind the body. -/
def withImage (m : Message) (data mimeType : String) : Message :=
  { m with content := m.content.extend (.blocks [.image (.ofData data mimeType)]) }

/-- Put a body behind the body. -/
def extend (m : Message) (content : Content) : Message :=
  { m with content := m.content.extend content }

/-- Add a tool call. -/
def withToolCall (m : Message) (call : ToolCall) : Message :=
  { m with toolCalls := m.toolCalls ++ [call] }

/-- A message of the system. -/
def system (text : String) : Message := withText { role := .system } text

/-- A message of the user, without a body yet. -/
def user : Message := { role := .user }

/-- A message of the assistant, without a body yet. -/
def assistant : Message := { role := .assistant }

/-- The result of a tool call. -/
def tool (id text : String) : Message :=
  { withText { role := .tool } text with toolCallId? := some id }

/-- The text of the body. -/
def text (m : Message) : String := m.content.text

/-- Whether the message calls tools. -/
def hasToolCalls (m : Message) : Bool := !m.toolCalls.isEmpty

/-! ### Unique call ids -/

/-- Which ids serve as they are: those that are not empty and have not come before. -/
def keptFlags (seen : List String) : List String → List Bool
  | [] => []
  | id :: rest =>
    if id.isEmpty || seen.contains id then false :: keptFlags seen rest
    else true :: keptFlags (id :: seen) rest

/-- The `n`-th substitute for the id of the call at a position. -/
def substitute (position n : Nat) : String :=
  let base := "call_" ++ toString position
  if n = 0 then base else base ++ "_" ++ toString n

/-- The first substitute from the `n`-th on that is not taken.  Of `taken.length + 1` substitutes,
all different, one is free. -/
def freshFrom (taken : List String) (position : Nat) : Nat → Nat → String
  | 0, n => substitute position n
  | fuel + 1, n =>
    if taken.contains (substitute position n) then freshFrom taken position fuel (n + 1)
    else substitute position n

/-- The first substitute that is not taken. -/
def freshId (taken : List String) (position : Nat) : String :=
  freshFrom taken position taken.length 0

/-- Replace the ids that do not serve, from a position on. -/
def assignIds (taken : List String) (position : Nat) : List (ToolCall × Bool) → List ToolCall
  | [] => []
  | (call, true) :: rest => call :: assignIds taken (position + 1) rest
  | (call, false) :: rest =>
    let id := freshId taken position
    { call with id } :: assignIds (id :: taken) (position + 1) rest

/-- Tool calls with ids that are not empty and differ from each other.  Every id that is not empty
is kept where it first occurs; another one is replaced by the first substitute for its position that
is neither a kept id of any call nor an id given to an earlier one. -/
def uniqueIds (calls : List ToolCall) : List ToolCall :=
  let flags := keptFlags [] (calls.map (·.id))
  let flagged := calls.zip flags
  let kept := (flagged.filter (·.2)).map (·.1.id)
  assignIds kept 0 flagged

/-- Give every tool call an id that is not empty and unique within the message. -/
def normalizeIds (m : Message) : Message := { m with toolCalls := uniqueIds m.toolCalls }

/-! ### Written form -/

/-- A message as a value.  Tool calls and the answered call appear only when there are any. -/
def toJson (m : Message) : Json :=
  .object <|
    [("role", .str m.role.name), ("content", m.content.toJson)] ++
    (if m.toolCalls.isEmpty then []
      else [("tool_calls", .arr (m.toolCalls.map ToolCall.toJson))]) ++
    Json.member? "tool_call_id" .str m.toolCallId?

/-- Read a message.  An absent body and `null` are the empty text. -/
def ofJson? (v : Json) : Option Message := do
  guard (v.isRecord 4)
  let role ← Role.ofName? (← Json.required (v.field? 0 "role") Json.bareChoice?)
  let content? ← Json.optional (v.field? 1 "content") Content.ofJson?
  let toolCalls ← Json.defaulted (v.field? 2 "tool_calls") [] (Json.listOf? ToolCall.ofJson?)
  let toolCallId? ← Json.optional (v.field? 3 "tool_call_id") Json.str?
  return ⟨role, content?.getD .empty, toolCalls, toolCallId?⟩

end Message

end Parley.Chat
