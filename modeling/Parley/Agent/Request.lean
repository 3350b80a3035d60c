import Parley.Chat.Message

/-!
# What a client asks of a turn

A `Request` brings the whole conversation so far, says whether tools may run without confirmation,
and answers the calls that wait: their ids are approved or rejected.
-/

namespace Parley.Agent

open Chat (Message)

/-- What a client submits for one turn. -/
structure Request where
  /-- The conversation so far. -/
  messages : List Message
  /-- Whether tools run without confirmation. -/
  autoExecute : Bool := false
  /-- The ids of the calls that may run. -/
  approved : List String := []
  /-- The ids of the calls that must not run. -/
  rejected : List String := []
  /-- What the client is looking at. -/
  currentPath? : Option String := none
deriving DecidableEq, Repr

namespace Request

open Json (defaulted listOf? optional required)

/-- Read what surrounds a turn: the path that the client is looking at. -/
def contextOfJson? (v : Json) : Option (Option String) := do
  guard (v.isRecord 1)
  optional (v.field? 0 "current_path") Json.str?

/-- Read a request.  Everything but the messages may be absent. -/
def ofJson? (v : Json) : Option Request := do
  guard (v.isRecord 5)
  return {
    messages := ← required (v.field? 0 "messages") (listOf? Message.ofJson?)
    autoExecute := ← defaulted (v.field? 1 "auto_execute") false Json.bool?
    approved := ← defaulted (v.field? 2 "approved_tool_call_ids") [] (listOf? Json.str?)
    rejected := ← defaulted (v.field? 3 "rejected_tool_call_ids") [] (listOf? Json.str?)
    currentPath? := ← defaulted (v.field? 4 "context") none contextOfJson? }

end Request

end Parley.Agent
