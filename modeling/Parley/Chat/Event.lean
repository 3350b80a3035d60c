import Parley.Chat.Message

/-!
# The event protocol of a turn

A turn is told as a sequence of `Event`s: messages of the assistant that start, grow and end, tools
that start and end, the calls that wait for a decision, and at the end `done` with everything the
turn produced.

On the wire an event is a frame of two lines, `event: <kind>` and `data: <payload>`, followed by a
blank line (`Event.encode`).
-/

namespace Parley.Chat

/-- A step of a turn. -/
inductive Event where
  /-- The model begins a message. -/
  | assistantStart (id : String)
  /-- A piece of the message's text. -/
  | assistantDelta (id delta : String)
  /-- The message is complete. -/
  | assistantEnd (id : String) (message : Message)
  /-- A tool call is taken up. -/
  | toolStart (callId name : String)
  /-- A tool call has its result. -/
  | toolEnd (callId name : String) (message : Message)
  /-- Calls wait for a decision. -/
  | pending (calls : List PendingCall)
  /-- The turn is over: the messages it produced, and the calls that wait, if any. -/
  | done (messages : List Message) (pending? : Option (List PendingCall))
deriving DecidableEq, Repr

namespace Event

/-- The name of an event's kind. -/
def kind : Event → String
  | .assistantStart .. => "assistant_start"
  | .assistantDelta .. => "assistant_delta"
  | .assistantEnd .. => "assistant_end"
  | .toolStart .. => "tool_start"
  | .toolEnd .. => "tool_end"
  | .pending .. => "pending"
  | .done .. => "done"

/-- Whether an event ends its turn. -/
def isTerminal : Event → Bool
  | .done .. => true
  | _ => false

/-- What an event carries. -/
def fields : Event → List (String × Json)
  | .assistantStart id => [("id", .str id)]
  | .assistantDelta id delta => [("id", .str id), ("delta", .str delta)]
  | .assistantEnd id message => [("id", .str id), ("message", message.toJson)]
  | .toolStart callId name => [("tool_call_id", .str callId), ("name", .str name)]
  | .toolEnd callId name message =>
    [("tool_call_id", .str callId), ("name", .str name), ("message", message.toJson)]
  | .pending calls => [("pending_tool_calls", .arr (calls.map PendingCall.toJson))]
  | .done messages pending? =>
    ("messages", .arr (messages.map Message.toJson)) ::
      Json.member? "pending_tool_calls" (fun calls => .arr (calls.map PendingCall.toJson)) pending?

/-- The payload of an event. -/
def payload (e : Event) : Json := .object e.fields

/-- An event as a value, with its kind under `type`. -/
def toJson (e : Event) : Json := .object (("type", .str e.kind) :: e.fields)

/-- The frame of an event. -/
def encode (e : Event) : String :=
  "event: " ++ e.kind ++ "\ndata: " ++ e.payload.print ++ "\n\n"

/-! ### Reading -/

open Json (required optional listOf?)

/-- Read an event. -/
def ofJson? (v : Json) : Option Event := do
  let (tag, v) ← tagged? v
  let text (place : Nat) (name : String) := required (v.field? place name) Json.str?
  let message (place : Nat) := required (v.field? place "message") Message.ofJson?
  match ← tag.bareChoice? with
  | "assistant_start" =>
    guard (v.isRecord 1)
    return .assistantStart (← text 0 "id")
  | "assistant_delta" =>
    guard (v.isRecord 2)
    return .assistantDelta (← text 0 "id") (← text 1 "delta")
  | "assistant_end" =>
    guard (v.isRecord 2)
    return .assistantEnd (← text 0 "id") (← message 1)
  | "tool_start" =>
    guard (v.isRecord 2)
    return .toolStart (← text 0 "tool_call_id") (← text 1 "name")
  | "tool_end" =>
    guard (v.isRecord 3)
    return .toolEnd (← text 0 "tool_call_id") (← text 1 "name") (← message 2)
  | "pending" =>
    guard (v.isRecord 1)
    return .pending (← required (v.field? 0 "pending_tool_calls") (listOf? PendingCall.ofJson?))
  | "done" =>
    guard (v.isRecord 2)
    return .done (← required (v.field? 0 "messages") (listOf? Message.ofJson?))
      (← optional (v.field? 1 "pending_tool_calls") (listOf? PendingCall.ofJson?))
  | _ => none

end Event

end Parley.Chat
