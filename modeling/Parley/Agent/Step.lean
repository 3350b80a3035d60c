import Parley.Chat.Event
import Parley.Tool.Registry
import Parley.Wire.Error

/-!
# The log of a turn

A turn is a list of `Step`s.  The steps tell everything that a turn does: what the model is asked
and what it answers, what becomes of every tool call, and how the turn ends.  What others see of a
turn are views of its log: the events that a client hears (`events`), the same with the failure of
the model among them (`items`), the histories that the model is given (`histories`), the calls that
reach a tool (`invocations`), and the messages that the turn adds to the conversation (`messages`).
-/

namespace Parley.Agent

open Chat (Arguments Event Message PendingCall ToolCall ToolError)
open Tool (Output)
open Wire (Failure)

/-! ### Tool calls in a log -/

/-- Where a tool call stands in a history. -/
structure Place where
  /-- The number of messages before that of the call. -/
  message : Nat
  /-- The number of calls of the message before this one. -/
  call : Nat
deriving DecidableEq, Repr

/-- What becomes of a tool call that is taken up. -/
inductive Fate where
  /-- The client rejected it. -/
  | canceled
  /-- It reaches no tool. -/
  | refused (why : ToolError)
  /-- Its tool ran. -/
  | ran (arguments : Arguments) (result : Except ToolError Output)

namespace Fate

/-- What the model is told of a rejected call. -/
def cancellation : Json := .object [("canceled", .bool true), ("reason", .str "user_rejected")]

/-- What the model is told. -/
def text : Fate → String
  | .canceled => cancellation.print
  | .refused e | .ran _ (.error e) => (Output.error e.message).render
  | .ran _ (.ok output) => output.render

end Fate

/-! ### Steps -/

/-- A step of a turn. -/
inductive Step where
  /-- The model is asked to go on from a history.  The message it will give has an id. -/
  | asked (id : String) (history : List Message)
  /-- A piece of the text of that message arrives. -/
  | heard (id delta : String)
  /-- The assistant says a message. -/
  | said (id : String) (message : Message)
  /-- The model gives no message. -/
  | failed (failure : Failure)
  /-- A tool call is taken up. -/
  | settled (place : Place) (call : ToolCall) (fate : Fate)
  /-- A tool call is held until the client decides. -/
  | held (place : Place) (call : ToolCall)
  /-- The turn stops for the calls that are held. -/
  | paused (calls : List PendingCall)
  /-- The turn is over. -/
  | finished (messages : List Message) (pending? : Option (List PendingCall))

namespace Step

/-- The result of a tool call as a message. -/
def result (call : ToolCall) (fate : Fate) : Message := .tool call.id fate.text

/-- What a client hears of a step. -/
def events : Step → List Event
  | .asked id _ => [.assistantStart id]
  | .heard id delta => [.assistantDelta id delta]
  | .said id message => [.assistantEnd id message]
  | .settled _ call fate =>
    [.toolStart call.id call.name, .toolEnd call.id call.name (result call fate)]
  | .paused calls => [.pending calls]
  | .finished messages pending? => [.done messages pending?]
  | .failed _ | .held .. => []

/-- What a step tells of a turn that is told by its outcome: what a client hears, or that the model
failed. -/
def items : Step → List (Except Failure Event)
  | .failed failure => [.error failure]
  | s => s.events.map .ok

/-- The message that a step adds to the conversation. -/
def message? : Step → Option Message
  | .said _ message => some message
  | .settled _ call fate => some (result call fate)
  | _ => none

/-- The history that the model is given in a step. -/
def history? : Step → Option (List Message)
  | .asked _ history => some history
  | _ => none

/-- The call that reaches a tool in a step, with the arguments that the tool receives. -/
def invocation? : Step → Option (ToolCall × Arguments)
  | .settled _ call (.ran arguments _) => some (call, arguments)
  | _ => none

/-- Whether a tool call is taken up in a step. -/
def isSettled : Step → Bool
  | .settled .. => true
  | _ => false

end Step

/-! ### Views of a log -/

/-- What a client hears. -/
def events (log : List Step) : List Event := log.flatMap Step.events

/-- What is told of a turn that is told by its outcome. -/
def items (log : List Step) : List (Except Failure Event) := log.flatMap Step.items

/-- What the turn adds to the conversation. -/
def messages (log : List Step) : List Message := log.filterMap Step.message?

/-- The histories that the model is given. -/
def histories (log : List Step) : List (List Message) := log.filterMap Step.history?

/-- The calls that reach a tool. -/
def invocations (log : List Step) : List (ToolCall × Arguments) := log.filterMap Step.invocation?

end Parley.Agent
