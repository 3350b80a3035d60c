import Parley.Agent.Open
import Parley.Prompt.System
import Parley.Provider.Model

/-!
# Turns

An `Agent` is a model with tools.  Its turn (`Agent.play`) has two phases.  First it takes up the
calls that the conversation left open.  Then the model is asked, and the calls of its answer are
dispatched, round after round, until a call is held for the client, an answer has no call that runs,
the model fails or `maxRounds` is reached.

A call of a tool that requires confirmation is held unless the client approved it or lets tools run
without.  No failure of a tool ends a turn: the model is told about it.  A failure of the model
does; the client of a streamed turn then hears an apology.
-/

namespace Parley

open Chat (Message PendingCall ToolCall)
open Floating (Single)
open Provider (Model)
open Wire (Chunk Completion Failure Options)

/-- A model with tools. -/
structure Agent (σ : Type) where
  /-- The model. -/
  model : Model σ
  /-- The tools. -/
  registry : Registry σ
  /-- How freely the model chooses its words. -/
  temperature? : Option Single := none
  /-- How often the model is asked in one turn. -/
  maxRounds : Nat := 4
  /-- The model is asked at least once. -/
  maxRounds_pos : 0 < maxRounds := by decide

namespace Agent

/-! ### The state of a turn -/

/-- A turn under way. -/
structure Turn (σ : Type) where
  /-- The conversation, with the system prompt in front. -/
  history : List Message
  /-- What the turn has added to it. -/
  produced : List Message := []
  /-- The calls that are held. -/
  pending : List PendingCall := []
  /-- How often the model has been asked. -/
  rounds : Nat := 0
  /-- What model and tools work on. -/
  world : σ

/-- How a turn is told. -/
inductive Mode where
  /-- By its outcome. -/
  | whole
  /-- By its events, while it runs. -/
  | streamed
deriving DecidableEq, Repr

variable {σ : Type}

namespace Turn

/-- Add a message to the conversation. -/
def record (m : Message) (t : Turn σ) : Turn σ :=
  { t with history := t.history ++ [m], produced := t.produced ++ [m] }

/-- Hold a call. -/
def hold (call : ToolCall) (t : Turn σ) : Turn σ :=
  { t with pending := t.pending ++ [.ofCall call] }

/-- The calls that are held, if there are any. -/
def pending? (t : Turn σ) : Option (List PendingCall) :=
  if t.pending.isEmpty then none else some t.pending

/-- The step that ends the turn. -/
def finish (t : Turn σ) : Step := .finished t.produced t.pending?

end Turn

/-- The turn that a request begins. -/
def start (a : Agent σ) (request : Request) (world : σ) : Turn σ where
  history := .system (Prompt.system a.registry.catalogue request.currentPath?) ::
    request.messages.map Message.normalizeIds
  world

/-! ### Tool calls -/

/-- Whether the tool of a call requires confirmation. -/
def needsConfirmation (a : Agent σ) (call : ToolCall) : Bool :=
  ((a.registry.lookup call.name).map (·.requiresConfirmation)).getD false

/-- Whether a call that is dispatched is held. -/
def isGated (a : Agent σ) (autoExecute : Bool) (call : ToolCall) : Bool :=
  !autoExecute && a.needsConfirmation call

/-- Run the tool of a call. -/
def runCall (a : Agent σ) (call : ToolCall) (world : σ) : Fate × σ :=
  match a.registry.lookup call.name with
  | none => (.refused (.notFound call.name), world)
  | some tool =>
    match call.parseArguments with
    | .error e => (.refused e, world)
    | .ok arguments =>
      let (result, world) := tool.handler arguments world
      (.ran arguments result, world)

/-- Take up a call. -/
def take (a : Agent σ) (autoExecute : Bool) (o : OpenCall) (t : Turn σ) : Step × Turn σ :=
  if o.resolution = .cancel then
    (.settled o.place o.call .canceled, t.record (Step.result o.call .canceled))
  else if o.resolution = .dispatch ∧ a.isGated autoExecute o.call then
    (.held o.place o.call, t.hold o.call)
  else
    let (fate, world) := a.runCall o.call t.world
    (.settled o.place o.call fate, { t with world }.record (Step.result o.call fate))

/-- Take up calls one after the other. -/
def takeAll (a : Agent σ) (autoExecute : Bool) : List OpenCall → Turn σ → List Step × Turn σ
  | [], t => ([], t)
  | o :: rest, t =>
    let (step, t) := a.take autoExecute o t
    let (steps, t) := a.takeAll autoExecute rest t
    (step :: steps, t)

/-! ### Asking the model -/

/-- What the model answers: pieces of text, and at last a completion or a failure. -/
structure Answer where
  /-- The pieces of text. -/
  deltas : List String := []
  /-- What comes of it. -/
  result : Except Failure Completion

/-- The piece of text that an item of a stream is. -/
def delta? : Except Failure Chunk → Option String
  | .ok (.delta d) => some d
  | _ => none

/-- The answer that a stream gives.  Nothing after the first completion or failure counts. -/
def Answer.ofChunks (chunks : List (Except Failure Chunk)) : Answer where
  deltas := (chunks.takeWhile (delta? · |>.isSome)).filterMap delta?
  result :=
    match chunks.find? (delta? · |>.isNone) with
    | some (.ok (.done completion)) => .ok completion
    | some (.error e) => .error e
    | _ => .error (.stream "stream ended without a final message")

/-- How the model is asked. -/
def options (a : Agent σ) : Options := { temperature? := a.temperature? }

/-- Ask the model to go on from a history. -/
def ask (a : Agent σ) (mode : Mode) (history : List Message) (world : σ) : Answer × σ :=
  match mode with
  | .whole =>
    let (result, world) := a.model.complete history a.registry.catalogue a.options world
    ({ result }, world)
  | .streamed =>
    match a.model.stream history a.registry.catalogue a.options world with
    | (.ok chunks, world) => (.ofChunks chunks, world)
    | (.error e, world) => ({ result := .error e }, world)

/-! ### Rounds -/

/-- How a round ends. -/
inductive Verdict where
  /-- The model has results of tools to read. -/
  | goesOn
  /-- No call ran. -/
  | rests
  /-- The model failed to give the message with an id. -/
  | broke (id : String) (failure : Failure)

/-- Ask the model and dispatch the calls of its answer. -/
def round (a : Agent σ) (mode : Mode) (autoExecute : Bool) (ids : Nat → String) (t : Turn σ) :
    List Step × Turn σ × Verdict :=
  let id := ids t.rounds
  let (answer, world) := a.ask mode t.history t.world
  let opening := .asked id t.history :: answer.deltas.map (.heard id)
  let t := { t with rounds := t.rounds + 1, world }
  match answer.result with
  | .error e => (opening ++ [.failed e], t, .broke id e)
  | .ok completion =>
    let message := completion.message.normalizeIds
    let (steps, t) :=
      a.takeAll autoExecute (dispatched t.history.length message.toolCalls) (t.record message)
    (opening ++ .said id message :: steps, t, if steps.any Step.isSettled then .goesOn else .rests)

/-- At most `limit` rounds, while no call is held. -/
def rounds (a : Agent σ) (mode : Mode) (autoExecute : Bool) (ids : Nat → String) :
    Nat → Turn σ → List Step × Turn σ × Option (String × Failure)
  | 0, t => ([], t, none)
  | limit + 1, t =>
    if t.pending.isEmpty then
      match a.round mode autoExecute ids t with
      | (steps, t, .broke id e) => (steps, t, some (id, e))
      | (steps, t, .rests) => (steps, t, none)
      | (steps, t, .goesOn) =>
        let (more, t, broken?) := a.rounds mode autoExecute ids limit t
        (steps ++ more, t, broken?)
    else ([], t, none)

/-! ### Turns -/

/-- What the client hears when the model fails. -/
def apology (e : Failure) : Message :=
  Message.assistant.withText ("Sorry, I could not get a response from the model: " ++ e.message)

/-- The end of a turn, whether the model failed or not. -/
def conclude (mode : Mode) (t : Turn σ) : Option (String × Failure) → List Step × Turn σ
  | none => ((t.pending?.map Step.paused).toList ++ [t.finish], t)
  | some (id, e) =>
    match mode with
    | .whole => ([], t)
    | .streamed =>
      let t := t.record (apology e)
      ([.said id (apology e), t.finish], t)

/-- A turn that is over. -/
structure Played (σ : Type) where
  /-- Its log. -/
  log : List Step
  /-- Its last state. -/
  last : Turn σ

/-- Take up the calls that the conversation of a request left open. -/
def resolve (a : Agent σ) (request : Request) (world : σ) : List Step × Turn σ :=
  let t := a.start request world
  a.takeAll request.autoExecute (openCalls request t.history) t

/-- Play a turn.  `ids` names the messages that the model is asked for. -/
def play (a : Agent σ) (mode : Mode) (ids : Nat → String) (request : Request) (world : σ) :
    Played σ :=
  let (resolved, t) := a.resolve request world
  let (asked, t, broken?) := a.rounds mode request.autoExecute ids a.maxRounds t
  let (ending, t) := conclude mode t broken?
  ⟨resolved ++ asked ++ ending, t⟩

/-- What comes of a turn. -/
structure Outcome where
  /-- What it adds to the conversation. -/
  messages : List Message
  /-- The calls that wait for the client. -/
  pending : List PendingCall
deriving DecidableEq, Repr

/-- An outcome as a value. -/
def Outcome.toJson (o : Outcome) : Json :=
  .object [("messages", .arr (o.messages.map Message.toJson)),
    ("pending_tool_calls", .arr (o.pending.map PendingCall.toJson))]

/-- What a turn that is told by its outcome comes to: the first failure of the model or `done` that
its steps tell of, if there is one. -/
def outcomeOf? : List (Except Failure Chat.Event) → Option (Except Failure Outcome)
  | [] => none
  | .error e :: _ => some (.error e)
  | .ok (.done messages pending?) :: _ => some (.ok ⟨messages, pending?.getD []⟩)
  | .ok _ :: rest => outcomeOf? rest

namespace Played

/-- What comes of a turn that is told by its outcome. -/
def outcome (p : Played σ) : Except Failure Outcome :=
  (outcomeOf? (items p.log)).getD (.error (.stream "turn ended without a result"))

/-- What a client hears of the turn. -/
def events (p : Played σ) : List Chat.Event := Agent.events p.log

end Played

end Agent

end Parley
