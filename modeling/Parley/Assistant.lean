import Parley.Agent.Turn
import Parley.Provider.Remote
import Parley.Tool.Builtin

/-!
# The assistant

An `Assistant` knows which providers and models there are and which tools.  For every turn it picks
the model for tools, `Assistant.agent`, and lets it play the turn in its `Surroundings`.
-/

namespace Parley

open Agent (Mode Outcome Played Request)
open Chat (Event)
open Floating (Single)
open Provider (Model SelectionError Store)
open Wire (Failure)

/-- Models and tools to choose from. -/
structure Assistant where
  /-- The providers and models. -/
  store : Store
  /-- The tools. -/
  registry : Registry Surroundings
  /-- How freely models choose their words. -/
  temperature? : Option Single := none
  /-- How often a model is asked in one turn. -/
  maxRounds : Nat := 4
  /-- A model is asked at least once. -/
  maxRounds_pos : 0 < maxRounds := by decide

namespace Assistant

/-- The assistant with another limit on rounds, where nothing counts as one. -/
def withMaxRounds (n : Nat) (a : Assistant) : Assistant :=
  { a with maxRounds := max n 1, maxRounds_pos := by omega }

/-- Why a turn has no outcome. -/
inductive TurnError where
  /-- No model could be chosen. -/
  | selection (error : SelectionError)
  /-- The model failed. -/
  | failure (error : Failure)

/-- The model for tools, with the tools. -/
def agent (a : Assistant) : Except SelectionError (Agent Surroundings) := do
  let model ← (← a.store.resolveForTools).remote
  return { a with model := model.within Surroundings.network Surroundings.withNetwork }

/-- Play a turn to its end. -/
def ask (a : Assistant) (request : Request) (s : Surroundings) :
    Except TurnError Outcome × Surroundings :=
  match a.agent with
  | .error e => (.error (.selection e), s)
  | .ok agent =>
    let played := agent.play .whole (fun _ => "") request s
    (played.outcome.mapError .failure, played.last.world)

/-- Play a turn and tell its events.  `ids` names the messages of the assistant. -/
def reply (a : Assistant) (ids : Nat → String) (request : Request) (s : Surroundings) :
    Except SelectionError (List Event) × Surroundings :=
  match a.agent with
  | .error e => (.error e, s)
  | .ok agent =>
    let played := agent.play .streamed ids request s
    (.ok played.events, played.last.world)

end Assistant

end Parley
