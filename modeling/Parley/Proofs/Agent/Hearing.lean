import Parley.Proofs.Provider.Deltas
import Parley.Proofs.Agent.Asking
import Parley.Proofs.Agent.Modes

/-!
# What is heard of a message

The client of a streamed turn hears the text of a message piece by piece before it gets the message.
When the stream of the model adds up (`Provider.StreamAddsUp`) the two are the same: what is heard
between a question and the message, put together, is the text of the message (`deltas_add_up`).
-/

namespace Parley.Agent

open Chat (Event Message ToolSchema)
open Net (Network)
open Provider (ApiFormat Endpoint Model StreamAddsUp)
open Wire (AddsUp Chunk Completion Failure Options deltaItems)
open Wire.Anthropic (Orderly eventsOf piecesOf)

variable {σ : Type} {a : Agent σ} {auto : Bool} {ids : Nat → String}

/-! ### Rounds -/

/-- An answer that comes of a stream: when it is a message, its text is what was heard of it. -/
theorem answerOf_addsUp {stream : Except Failure (List (Except Failure Chunk))}
    (h : StreamAddsUp stream) :
    "" ∉ (answerOf stream).deltas ∧
      ∀ c, (answerOf stream).result = .ok c →
      String.join (answerOf stream).deltas = c.message.text := by
  cases stream with
  | error e => exact ⟨List.not_mem_nil, fun c hc => nomatch hc⟩
  | ok items =>
    cases h items rfl with
    | @done deltas c hnonempty htext =>
      have hanswer : answerOf (.ok (deltaItems deltas ++ [.ok (.done c)])) =
          ⟨deltas ++ [], .ok c⟩ :=
        ofChunks_deltas_append deltas [.ok (.done c)]
      rw [hanswer, List.append_nil]
      refine ⟨hnonempty, ?_⟩
      rintro c ⟨rfl⟩
      exact (String.empty_append ..).symm.trans htext
    | @failed deltas hnonempty e =>
      have hanswer : answerOf (.ok (deltaItems deltas ++ [.error e])) = ⟨deltas ++ [], .error e⟩ :=
        ofChunks_deltas_append deltas [.error e]
      rw [hanswer, List.append_nil]
      exact ⟨hnonempty, fun c hc => nomatch hc⟩

/-- A round goes on from its question with pieces of text and the message that they make up, or with
a failure. -/
theorem Rounding.heard {t t' : Turn σ} {steps : List Step} {verdict : Verdict}
    (h : Rounding a .streamed auto ids t steps t' verdict)
    (hadds : StreamAddsUp (a.model.stream t.history a.registry.catalogue a.options t.world).1) :
    ∃ deltas rest, "" ∉ deltas ∧
      ((∃ m, steps = .asked (ids t.rounds) t.history ::
          (deltas.map (.heard (ids t.rounds)) ++ .said (ids t.rounds) m :: rest) ∧
        String.join deltas = m.text) ∨
      ∃ e, steps = .asked (ids t.rounds) t.history ::
        (deltas.map (.heard (ids t.rounds)) ++ .failed e :: rest)) := by
  have hanswer := answerOf_addsUp hadds
  have hask : answerOf (a.model.stream t.history a.registry.catalogue a.options t.world).1 =
      (a.ask .streamed t.history t.world).1 := by rw [ask_streamed]
  rw [hask] at hanswer
  cases h with
  | @broke deltas e world hbroke =>
    rw [hbroke] at hanswer
    exact ⟨deltas, [], hanswer.1, Or.inr ⟨e, rfl⟩⟩
  | @spoke deltas completion world m spoken hspoke hm =>
    rw [hspoke] at hanswer
    -- the ids of calls have no part in the text
    have htext : m.text = completion.message.text := by rw [hm]; rfl
    exact ⟨deltas, _, hanswer.1, Or.inl ⟨m, rfl, (hanswer.2 completion rfl).trans htext.symm⟩⟩

/-- What a client hears of a message: that it begins, its text piece by piece, and the message. -/
theorem events_said (id : String) (history : List Message) (deltas : List String) (m : Message)
    (rest : List Step) :
    events (.asked id history :: (deltas.map (.heard id) ++ .said id m :: rest)) =
      .assistantStart id :: (deltas.map (.assistantDelta id) ++ .assistantEnd id m ::
        events rest) := by
  have hheard : events (deltas.map (.heard id)) = deltas.map (.assistantDelta id) := by
    induction deltas with
    | nil => rfl
    | cons d deltas ih => rw [List.map_cons, events_cons, ih]; rfl
  rw [events_cons, events_append, hheard]
  rfl

/-! ### Turns -/

/-- **Pieces of text add up.**  Whatever lines a stream has, its pieces of text are not empty, and
when it has a message they make up its text: in the OpenAI and in the Ollama format, for a model
without a stream of its own, and in the Anthropic format when the pieces of blocks come in order.
So the streams of an endpoint add up, in whatever surroundings, if in the Anthropic format the reply
is in order.

When a turn asks the model and the stream adds up, the client hears pieces of text that are not
empty, and behind them gets the message whose text they make up, unless the model fails. -/
theorem deltas_add_up :
    (∀ lines, AddsUp (Wire.OpenAi.assembly.chunksFrom Wire.OpenAi.assembly.start lines)) ∧
    (∀ lines, AddsUp (Wire.Ollama.assembly.chunksFrom Wire.Ollama.assembly.start lines)) ∧
    (∀ (σ : Type)
      (complete : List Message → List ToolSchema → Options → σ → Except Failure Completion × σ)
      (history : List Message) (tools : List ToolSchema) (options : Options) (s : σ),
      StreamAddsUp (Model.streamOf complete history tools options s).1) ∧
    (∀ lines, Orderly (piecesOf (eventsOf none lines)) →
      AddsUp (Wire.Anthropic.assembly.chunksFrom Wire.Anthropic.assembly.start lines)) ∧
    (∀ (e : Endpoint) (format : ApiFormat) (σ : Type) (get : σ → Network) (set : Network → σ → σ)
      (history : List Message) (tools : List ToolSchema) (options : Options) (s : σ),
      (format = .anthropic → ∀ sent reply n,
        e.anthropicPost (Wire.Anthropic.chatPayload e.model e.maxTokens? history tools options
          true) = .ok sent →
        (get s).send sent = (.ok reply, n) → Orderly (piecesOf (eventsOf none reply.body.lines))) →
      StreamAddsUp (((e.remote format).within get set).stream history tools options s).1) ∧
    ∀ (σ : Type) (a : Agent σ) (ids : Nat → String) (request : Request) (world : σ)
      (before after : List Step) (id : String) (history : List Message),
      (a.play .streamed ids request world).log = before ++ .asked id history :: after →
      ∃ asked t, before = (a.resolve request world).1 ++ asked ∧
        LeadsTo a .streamed request.autoExecute ids (a.resolve request world).2 asked t ∧
        history = t.history ∧
        (StreamAddsUp (a.model.stream history a.registry.catalogue a.options t.world).1 →
          ∃ deltas rest, "" ∉ deltas ∧
            ((∃ m, after = deltas.map (.heard id) ++ .said id m :: rest ∧
              (a.play .streamed ids request world).events = events before ++ .assistantStart id ::
                (deltas.map (.assistantDelta id) ++ .assistantEnd id m :: events rest) ∧
              String.join deltas = m.text) ∨
            ∃ e, after = deltas.map (.heard id) ++ .failed e :: rest)) := by
  refine ⟨Wire.OpenAi.addsUp, Wire.Ollama.addsUp, fun σ => Provider.streamAddsUp_streamOf,
    fun lines => Wire.Anthropic.addsUp, ?_, ?_⟩
  · intro e format σ get set history tools options s horderly
    exact Provider.streamAddsUp_remote e format history tools options (get s) horderly
  · intro σ a ids request world before after id history hlog
    obtain ⟨asked, t, steps, t', verdict, more, hbefore, hleads, rfl, hround, hsteps⟩ :=
      exists_rounding_of_asked hlog
    refine ⟨asked, t, hbefore, hleads, rfl, fun hadds => ?_⟩
    obtain ⟨deltas, rest, hnonempty, ⟨m, rfl, htext⟩ | ⟨e, rfl⟩⟩ := hround.heard hadds
    · rw [List.cons_append, List.cons.injEq, Step.asked.injEq, List.append_assoc,
        List.cons_append] at hsteps
      obtain ⟨⟨rfl, -⟩, rfl⟩ := hsteps
      refine ⟨deltas, rest ++ more, hnonempty, Or.inl ⟨m, rfl, ?_, htext⟩⟩
      rw [Played.events, hlog, events_append, events_said]
    · rw [List.cons_append, List.cons.injEq, Step.asked.injEq, List.append_assoc,
        List.cons_append] at hsteps
      obtain ⟨⟨rfl, -⟩, rfl⟩ := hsteps
      exact ⟨deltas, rest ++ more, hnonempty, Or.inr ⟨e, rfl⟩⟩

/-- What the model says. -/
def greeting : Message := Message.assistant.withText "Hi you"

/-- The steps in which the client hears it. -/
def greetingSteps : List Step :=
  [.heard "a0" "Hi you", .said "a0" greeting, .finished [greeting] none]

/-- A stream in the Anthropic format whose pieces come in order, and a turn in which the client
hears a greeting. -/
theorem deltas_add_up_greeting :
    Orderly (piecesOf (eventsOf none (Wire.Anthropic.threeBlocks.map .ok))) ∧
    AddsUp (Wire.Anthropic.assembly.chunksFrom Wire.Anthropic.assembly.start
      (Wire.Anthropic.threeBlocks.map .ok)) ∧
    ∃ history deltas m rest,
      ((Sample.scripted fun _ => .ok { message := greeting }).play .streamed (fun _ => "a0")
        { messages := [] } 0).log = [] ++ .asked "a0" history :: greetingSteps ∧
      greetingSteps = deltas.map (.heard "a0") ++ .said "a0" m :: rest ∧ "" ∉ deltas ∧
      String.join deltas = m.text := by
  obtain ⟨-, -, hwhole, hanthropic, -, hturn⟩ := deltas_add_up
  have horderly := Wire.Anthropic.orderly_threeBlocks
  have hlog : ((Sample.scripted fun _ => .ok { message := greeting }).play .streamed (fun _ => "a0")
      { messages := [] } 0).log = [] ++ .asked "a0"
        ((Sample.scripted fun _ => .ok { message := greeting }).start { messages := [] } 0).history
          :: greetingSteps := rfl
  obtain ⟨asked, t, -, -, -, hheard⟩ := hturn _ _ _ _ _ _ _ _ _ hlog
  obtain ⟨deltas, rest, hnonempty, ⟨m, hsteps, -, htext⟩ | ⟨e, hsteps⟩⟩ :=
    hheard (hwhole Nat _ _ _ _ _)
  · exact ⟨horderly, hanthropic _ horderly, _, deltas, m, rest, hlog, hsteps, hnonempty, htext⟩
  · -- the model did not fail
    have hfailed : Step.failed e ∈ greetingSteps := by
      rw [hsteps]
      exact List.mem_append_right _ List.mem_cons_self
    simp [greetingSteps] at hfailed

end Parley.Agent
