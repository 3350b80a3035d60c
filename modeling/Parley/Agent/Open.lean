import Parley.Agent.Request
import Parley.Agent.Step

/-!
# Calls that a turn finds open

The calls of the last assistant message that has any are *open* as long as no tool message after it
answers them.  A turn first takes up the open calls of the conversation that it is given.
`openCalls` lists them with what is to be done (`Resolution`): a rejected call is canceled, even if
it is approved as well, an approved one runs, and any other is dispatched like a call that the model
has just made, but only while nothing but results of tools follows the message.
-/

namespace Parley.Agent

open Chat (Message ToolCall)

/-- What is to be done about a call. -/
inductive Resolution where
  /-- It runs. -/
  | execute
  /-- It is canceled. -/
  | cancel
  /-- It runs or is held, as its tool demands. -/
  | dispatch
deriving DecidableEq, Repr

/-- A call that is to be taken up. -/
structure OpenCall where
  /-- Where it stands. -/
  place : Place
  /-- The call. -/
  call : ToolCall
  /-- What is to be done about it. -/
  resolution : Resolution
deriving DecidableEq, Repr

/-- The calls of a message at a position of the history, to be dispatched. -/
def dispatched (position : Nat) (calls : List ToolCall) : List OpenCall :=
  calls.zipIdx.map fun (call, i) => ⟨⟨position, i⟩, call, .dispatch⟩

/-- Whether a message calls tools on behalf of the assistant. -/
def isCalling (m : Message) : Bool := m.role = .assistant && m.hasToolCalls

/-- The last message that calls tools: its position, counted from `position` on, its calls and the
messages after it. -/
def lastCalling? (position : Nat) : List Message → Option (Nat × List ToolCall × List Message)
  | [] => none
  | m :: rest =>
    (lastCalling? (position + 1) rest).or
      (if isCalling m then some (position, m.toolCalls, rest) else none)

/-- Whether a message is the result of a tool. -/
def isResult (m : Message) : Bool := m.role = .tool

/-- The ids of the calls that messages answer. -/
def answeredIds (messages : List Message) : List String :=
  (messages.filter isResult).filterMap (·.toolCallId?)

/-- What is to be done about a call that the messages `after` its own do not answer. -/
def resolution? (request : Request) (after : List Message) (call : ToolCall) : Option Resolution :=
  if request.rejected.contains call.id then some .cancel
  else if request.approved.contains call.id then some .execute
  else if after.all isResult then some .dispatch
  else none

/-- The open calls of a history, with what the request wants done about them. -/
def openCalls (request : Request) (history : List Message) : List OpenCall :=
  match lastCalling? 0 history with
  | none => []
  | some (position, calls, after) =>
    (dispatched position calls).filterMap fun o =>
      if (answeredIds after).contains o.call.id then none
      else (resolution? request after o.call).map fun resolution => { o with resolution }

end Parley.Agent
