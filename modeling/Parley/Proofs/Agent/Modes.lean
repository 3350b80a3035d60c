import Parley.Proofs.Agent.Protocol
import Parley.Proofs.Agent.Sample

/-!
# Two ways to tell a turn

A turn that is told by its outcome asks the model for whole answers, and a turn that is told by its
events asks it for streams.  If the streams give what the model completes (`StreamsAlike`), the two
are the same turn: pieces of text and the ids of messages apart, the same steps lead to the same
state (`Conversing.plain_eq`).  So the outcome tells what `done` tells (`whole_eq_streamed`).  Only
a failure of the model is told in two ways: it is the outcome of one turn, and in the other one the
client hears an apology for it.
-/

namespace Parley.Agent

open Chat (Arguments Event Message ToolCall)
open Provider (Model)
open Wire (Chunk Completion Failure)

variable {σ : Type} {a : Agent σ} {auto : Bool} {ids ids' : Nat → String}

/-! ### Streams of answers -/

/-- How a stream gives an answer.  Nothing that comes behind the answer counts. -/
inductive StreamsAs :
    Except Failure Completion → Except Failure (List (Except Failure Chunk)) → Prop where
  /-- Pieces of text come first, and then the whole message. -/
  | done (deltas : List String) (c : Completion) (rest : List (Except Failure Chunk)) :
    StreamsAs (.ok c) (.ok (deltas.map (fun d => .ok (.delta d)) ++ .ok (.done c) :: rest))
  /-- There is no stream. -/
  | refused (e : Failure) : StreamsAs (.error e) (.error e)
  /-- The stream fails, perhaps behind pieces of text. -/
  | broke (deltas : List String) (e : Failure) (rest : List (Except Failure Chunk)) :
    StreamsAs (.error e) (.ok (deltas.map (fun d => .ok (.delta d)) ++ .error e :: rest))

/-- Whether the streams of a model give the answers that it completes, and do the same besides. -/
def StreamsAlike (m : Model σ) : Prop :=
  ∀ history tools options world,
    StreamsAs (m.complete history tools options world).1 (m.stream history tools options world).1 ∧
      (m.stream history tools options world).2 = (m.complete history tools options world).2

/-- Pieces of text do not change what comes of a stream. -/
theorem ofChunks_deltas_append (deltas : List String) (chunks : List (Except Failure Chunk)) :
    Answer.ofChunks (deltas.map (fun d => .ok (.delta d)) ++ chunks) =
      ⟨deltas ++ (Answer.ofChunks chunks).deltas, (Answer.ofChunks chunks).result⟩ := by
  induction deltas with
  | nil => rfl
  | cons d rest ih =>
    have hcons : ∀ chunks, Answer.ofChunks (.ok (.delta d) :: chunks) =
        ⟨d :: (Answer.ofChunks chunks).deltas, (Answer.ofChunks chunks).result⟩ := fun _ => rfl
    rw [List.map_cons, List.cons_append, hcons, ih]
    rfl

/-- The answer that comes of a stream, if there is one. -/
def answerOf : Except Failure (List (Except Failure Chunk)) → Answer
  | .ok chunks => .ofChunks chunks
  | .error e => { result := .error e }

theorem StreamsAs.result_eq {answer : Except Failure Completion}
    {stream : Except Failure (List (Except Failure Chunk))} (h : StreamsAs answer stream) :
    (answerOf stream).result = answer := by
  cases h with
  | done => rw [answerOf, ofChunks_deltas_append]; rfl
  | refused => rfl
  | broke => rw [answerOf, ofChunks_deltas_append]; rfl

theorem ask_whole (history : List Message) (world : σ) :
    a.ask .whole history world =
      ({ result := (a.model.complete history a.registry.catalogue a.options world).1 },
        (a.model.complete history a.registry.catalogue a.options world).2) := rfl

theorem ask_streamed (history : List Message) (world : σ) :
    a.ask .streamed history world =
      (answerOf (a.model.stream history a.registry.catalogue a.options world).1,
        (a.model.stream history a.registry.catalogue a.options world).2) := by
  unfold ask
  dsimp only
  generalize a.model.stream history a.registry.catalogue a.options world = streamed
  obtain ⟨stream, world'⟩ := streamed
  cases stream <;> rfl

/-- A model whose streams give what it completes answers the same in both modes. -/
theorem ask_streamed_eq (h : StreamsAlike a.model) (history : List Message) (world : σ) :
    (a.ask .streamed history world).1.result = (a.ask .whole history world).1.result ∧
      (a.ask .streamed history world).2 = (a.ask .whole history world).2 := by
  obtain ⟨hstreams, hworld⟩ := h history a.registry.catalogue a.options world
  rw [ask_streamed, ask_whole]
  exact ⟨hstreams.result_eq, hworld⟩

/-- A stream that is made of whole answers gives them. -/
theorem streamsAs_streamOf
    (complete : List Message → List Chat.ToolSchema → Wire.Options → σ →
      Except Failure Completion × σ)
    (history : List Message) (tools : List Chat.ToolSchema) (options : Wire.Options) (world : σ) :
    StreamsAs (complete history tools options world).1
        (Model.streamOf complete history tools options world).1 ∧
      (Model.streamOf complete history tools options world).2 =
        (complete history tools options world).2 := by
  refine ⟨?_, rfl⟩
  show StreamsAs _ ((complete history tools options world).1.map Model.wholeStream)
  cases (complete history tools options world).1 with
  | error e => exact .refused e
  | ok c =>
    show StreamsAs (.ok c) (.ok (Model.wholeStream c))
    unfold Model.wholeStream
    split
    · exact .done [] c []
    · exact .done [c.message.text] c []

/-! ### Plain steps -/

/-- A step without what depends on how a turn is told: pieces of text do not count, nor do the ids
of messages. -/
def Step.plain? : Step → Option Step
  | .asked _ history => some (.asked "" history)
  | .heard .. => none
  | .said _ m => some (.said "" m)
  | s => some s

/-- What happens in a log, however it is told. -/
def plain (log : List Step) : List Step := log.filterMap Step.plain?

/-- A verdict without the id of the message that the model failed to give. -/
def Verdict.plain : Verdict → Verdict
  | .broke _ e => .broke "" e
  | verdict => verdict

theorem plain_append (l₁ l₂ : List Step) : plain (l₁ ++ l₂) = plain l₁ ++ plain l₂ :=
  List.filterMap_append

theorem plain_opening (id : String) (history : List Message) (deltas : List String) :
    plain (.asked id history :: deltas.map (.heard id)) = [.asked "" history] := by
  have hheard : plain (deltas.map (.heard id)) = [] := by
    apply List.filterMap_eq_nil_iff.mpr
    intro s hs
    obtain ⟨d, -, rfl⟩ := List.mem_map.mp hs
    rfl
  show .asked "" history :: plain (deltas.map (.heard id)) = _
  rw [hheard]

theorem histories_plain (log : List Step) : histories (plain log) = histories log := by
  rw [histories, plain, List.filterMap_filterMap]
  congr 1
  funext s
  cases s <;> rfl

theorem invocations_plain (log : List Step) : invocations (plain log) = invocations log := by
  rw [invocations, plain, List.filterMap_filterMap]
  congr 1
  funext s
  cases s <;> rfl

/-! ### The same rounds -/

/-- A round goes the same way in both modes. -/
theorem Rounding.plain_eq (h : StreamsAlike a.model) {t t₁ t₂ : Turn σ} {steps₁ steps₂ : List Step}
    {verdict₁ verdict₂ : Verdict} (hs : Rounding a .streamed auto ids t steps₁ t₁ verdict₁)
    (hw : Rounding a .whole auto ids' t steps₂ t₂ verdict₂) :
    plain steps₁ = plain steps₂ ∧ t₁ = t₂ ∧ verdict₁.plain = verdict₂.plain := by
  obtain ⟨hresult, hworld⟩ := ask_streamed_eq h t.history t.world
  -- both models answer the same, so that neither round can fail alone
  cases hs with
  | @broke deltas e world hask =>
    rw [hask] at hresult hworld
    cases hw with
    | @broke deltas' e' world' hask' =>
      rw [hask'] at hresult hworld
      cases hresult
      cases hworld
      refine ⟨?_, rfl, rfl⟩
      rw [plain_append, plain_append, plain_opening, plain_opening]
    | spoke hask' =>
      rw [hask'] at hresult
      cases hresult
  | @spoke deltas completion world m spoken hask hm hspoken =>
    rw [hask] at hresult hworld
    cases hw with
    | broke hask' =>
      rw [hask'] at hresult
      cases hresult
    | @spoke deltas' completion' world' m' spoken' hask' hm' hspoken' =>
      rw [hask'] at hresult hworld
      cases hresult
      cases hworld
      obtain rfl : m = m' := hm.trans hm'.symm
      obtain rfl : spoken = spoken' := hspoken.trans hspoken'.symm
      refine ⟨?_, rfl, rfl⟩
      rw [plain_append, plain_append, plain_opening, plain_opening]
      rfl

/-- The rounds of two turns go the same way, as far as a view of their steps tells, if each round
does. -/
theorem Conversing.view_eq {mode mode' : Mode} {view : Step → Option Step}
    (hview : ∀ {t t₁ t₂ : Turn σ} {steps₁ steps₂ : List Step} {verdict₁ verdict₂ : Verdict},
      Rounding a mode auto ids t steps₁ t₁ verdict₁ →
      Rounding a mode' auto ids' t steps₂ t₂ verdict₂ →
      steps₁.filterMap view = steps₂.filterMap view ∧ t₁ = t₂ ∧ verdict₁.plain = verdict₂.plain)
    {n : Nat} {t t₁ t₂ : Turn σ} {log₁ log₂ : List Step}
    {broken₁ broken₂ : Option (String × Failure)}
    (h₁ : Conversing a mode auto ids n t log₁ t₁ broken₁)
    (h₂ : Conversing a mode' auto ids' n t log₂ t₂ broken₂) :
    log₁.filterMap view = log₂.filterMap view ∧ t₁ = t₂ ∧
    broken₁.map (·.2) = broken₂.map (·.2) := by
  -- along one turn: the other one is in the same state, and its round ends with the same verdict
  induction h₁ generalizing log₂ t₂ broken₂ with
  | exhausted =>
    cases h₂
    exact ⟨rfl, rfl, rfl⟩
  | waits hheld =>
    cases h₂ with
    | waits => exact ⟨rfl, rfl, rfl⟩
    | broke hnone => exact absurd hnone hheld
    | rests hnone => exact absurd hnone hheld
    | goesOn hnone => exact absurd hnone hheld
  | broke hnone round =>
    cases h₂ with
    | waits hheld => exact absurd hnone hheld
    | broke _ round' =>
      obtain ⟨hsteps, hstate, hverdict⟩ := hview round round'
      cases hverdict
      exact ⟨hsteps, hstate, rfl⟩
    | rests _ round' => nomatch (hview round round').2.2
    | goesOn _ round' => nomatch (hview round round').2.2
  | rests hnone round =>
    cases h₂ with
    | waits hheld => exact absurd hnone hheld
    | broke _ round' => nomatch (hview round round').2.2
    | rests _ round' =>
      obtain ⟨hsteps, hstate, -⟩ := hview round round'
      exact ⟨hsteps, hstate, rfl⟩
    | goesOn _ round' => nomatch (hview round round').2.2
  | goesOn hnone round _ ih =>
    cases h₂ with
    | waits hheld => exact absurd hnone hheld
    | broke _ round' => nomatch (hview round round').2.2
    | rests _ round' => nomatch (hview round round').2.2
    | goesOn _ round' rest' =>
      obtain ⟨hsteps, rfl, -⟩ := hview round round'
      obtain ⟨hmore, hstate, hbroken⟩ := ih rest'
      exact ⟨by rw [List.filterMap_append, List.filterMap_append, hsteps, hmore], hstate, hbroken⟩

/-- **The same turn.**  The rounds go the same way in both modes, and if the model fails it is with
the same failure. -/
theorem Conversing.plain_eq (h : StreamsAlike a.model) {n : Nat} {t t₁ t₂ : Turn σ}
    {log₁ log₂ : List Step} {broken₁ broken₂ : Option (String × Failure)}
    (hs : Conversing a .streamed auto ids n t log₁ t₁ broken₁)
    (hw : Conversing a .whole auto ids' n t log₂ t₂ broken₂) :
    plain log₁ = plain log₂ ∧ t₁ = t₂ ∧ broken₁.map (·.2) = broken₂.map (·.2) :=
  hs.view_eq (fun round round' => round.plain_eq h round') hw

/-! ### Whole turns -/

/-- The client hears which failure the model had. -/
theorem text_apology (e : Failure) :
    (apology e).text = "Sorry, I could not get a response from the model: " ++ e.message := by
  simp [apology, Message.text, Message.withText, Message.assistant, Chat.Content.extend,
    Chat.Content.empty, Chat.Content.text]

/-- The end of a turn does nothing to its surroundings. -/
theorem world_conclude (mode : Mode) (t : Turn σ) (broken? : Option (String × Failure)) :
    (conclude mode t broken?).2.world = t.world := by
  cases broken? with
  | none => rfl
  | some broken => cases mode <;> rfl

/-- A turn tells of the failure that broke its rounds, and of no other. -/
theorem failed_mem_iff {mode : Mode} {request : Request} {world : σ} {asked : List Step}
    {t : Turn σ} {broken? : Option (String × Failure)} {n : Nat} {e : Failure}
    (hasked : Conversing a mode auto ids n (a.resolve request world).2 asked t broken?) :
    .failed e ∈ (a.resolve request world).1 ++ asked ++ (conclude mode t broken?).1 ↔
      ∃ id, broken? = some (id, e) := by
  constructor
  · exact eq_some_of_failed_mem hasked
  · rintro ⟨id, rfl⟩
    exact List.mem_append_left _ (List.mem_append_right _ hasked.failed_mem)

/-- A turn that is told by its outcome has one: the failure that broke its rounds, or what it has
added and the calls that wait. -/
theorem outcome_play {request : Request} {world : σ} {asked : List Step} {t : Turn σ}
    {broken? : Option (String × Failure)} {n : Nat}
    (hasked :
      Conversing a .whole request.autoExecute ids n (a.resolve request world).2 asked t broken?)
    (hlog : (a.play .whole ids request world).log =
      (a.resolve request world).1 ++ asked ++ (conclude .whole t broken?).1) :
    (a.play .whole ids request world).outcome =
      ((broken?.map (·.2)).map Except.error).getD (.ok ⟨t.produced, t.pending?.getD []⟩) := by
  rw [Played.outcome, outcomeOf?_play hasked hlog, Option.map_map]
  rfl

/-- When the model fails, a turn that is told by its events ends with the apology, and tells of the
messages before it. -/
theorem exists_log_eq_apology {request : Request} {world : σ} {asked : List Step} {t : Turn σ}
    {id : String} {e : Failure} {n : Nat}
    (hasked :
      Conversing a .streamed auto ids n (a.resolve request world).2 asked t (some (id, e))) :
    ∃ before, (a.resolve request world).1 ++ asked ++ (conclude .streamed t (some (id, e))).1 =
        before ++ [.failed e, .said id (apology e),
          .finished (messages before ++ [apology e]) none] ∧
      ∀ e', .failed e' ∉ before := by
  obtain ⟨before, rfl, hnone⟩ := hasked.failing
  refine ⟨(a.resolve request world).1 ++ before, ?_, ?_⟩
  · have hproduced : t.produced = messages ((a.resolve request world).1 ++ before) := by
      have hadvances := (advances_resolve a request world).trans hasked.advances
      have hfailing : messages (failing (some (id, e))) = [] := rfl
      rw [hadvances.produced, messages_append, messages_append, hfailing, List.append_nil,
        messages_append]
      rfl
    have hpending : t.pending? = none := by
      rw [Turn.pending?, hasked.pending_eq_nil]
      rfl
    have hending : (conclude .streamed t (some (id, e))).1 =
        [.said id (apology e), .finished (t.produced ++ [apology e]) t.pending?] := rfl
    rw [hending, hproduced, hpending, List.append_assoc, List.append_assoc, List.append_assoc]
    rfl
  · intro e' hmem
    rcases List.mem_append.mp hmem with hmem | hmem
    · exact failed_not_mem_takeAll hmem
    · exact hnone e' hmem

/-- **Two ways to tell one turn.**  The streams of the model give what it completes.  Then a turn
does the same to its surroundings in both modes: the same tools receive the same arguments in the
same order, and the model is given the same histories.  If the model does not fail, the outcome of
one is what `done` tells at the end of the other.  The outcome is a failure exactly when the model
fails in the turn that is told by its events, which then ends with the apology for that failure, and
with `done`, which tells of what was recorded before and the apology. -/
theorem whole_eq_streamed (a : Agent σ) (h : StreamsAlike a.model) (ids ids' : Nat → String)
    (request : Request) (world : σ) :
    invocations (a.play .whole ids' request world).log =
      invocations (a.play .streamed ids request world).log ∧
    histories (a.play .whole ids' request world).log =
      histories (a.play .streamed ids request world).log ∧
    (a.play .whole ids' request world).last.world =
      (a.play .streamed ids request world).last.world ∧
    ((∀ e, .failed e ∉ (a.play .streamed ids request world).log) →
      ∃ heard produced pending?,
        (a.play .streamed ids request world).events = heard ++ [.done produced pending?] ∧
        (a.play .whole ids' request world).outcome = .ok ⟨produced, pending?.getD []⟩) ∧
    (∀ e, (a.play .whole ids' request world).outcome = .error e ↔
      .failed e ∈ (a.play .streamed ids request world).log) ∧
    ∀ e, .failed e ∈ (a.play .streamed ids request world).log →
      (apology e).text = "Sorry, I could not get a response from the model: " ++ e.message ∧
      ∃ before after id, (a.play .streamed ids request world).log = before ++ .failed e :: after ∧
        (∀ e', .failed e' ∉ before ++ after) ∧
        (a.play .streamed ids request world).events =
          events before ++
            [.assistantEnd id (apology e), .done (messages before ++ [apology e]) none] := by
  obtain ⟨asked, t, broken?, hs, hlog, hlast⟩ :=
    exists_conversing_play a .streamed ids request world
  obtain ⟨asked', t', broken?', hw, hlog', hlast'⟩ :=
    exists_conversing_play a .whole ids' request world
  obtain ⟨hplain, rfl, hbroken⟩ := hs.plain_eq h hw
  -- from here on both turns are told by the rounds of the streamed one
  have hfailed : ∀ e, .failed e ∈ (a.play .streamed ids request world).log ↔
      ∃ id, broken? = some (id, e) := fun e => by rw [hlog, failed_mem_iff hs]
  have houtcome := outcome_play hw hlog'
  rw [← hbroken] at houtcome
  refine ⟨?_, ?_, ?_, ?_, ?_, ?_⟩
  · rw [hlog, hlog', invocations_append, invocations_append, invocations_append, invocations_append,
      invocations_conclude, invocations_conclude, ← invocations_plain asked,
      ← invocations_plain asked', hplain]
  · rw [hlog, hlog', histories_eq, histories_eq, ← histories_plain asked, ← histories_plain asked',
      hplain]
  · rw [hlast, hlast', world_conclude, world_conclude]
  · intro hnone
    have hbroken : broken? = none := by
      cases broken? with
      | none => rfl
      | some broken => exact absurd ((hfailed broken.2).mpr ⟨broken.1, rfl⟩) (hnone broken.2)
    subst hbroken
    refine ⟨events ((a.resolve request world).1 ++ asked) ++ (t.pending?.map Event.pending).toList,
      t.produced, t.pending?, ?_, houtcome⟩
    rw [Played.events, hlog, events_append, events_conclude t none fun hne => absurd rfl hne,
      List.append_assoc, List.append_assoc]
    rfl
  · intro e
    rw [hfailed, houtcome]
    cases broken? with
    | none => simp
    | some broken =>
      obtain ⟨id, e'⟩ := broken
      simp
  · intro e he
    obtain ⟨id, rfl⟩ := (hfailed e).mp he
    obtain ⟨before, hbefore, hfree⟩ := exists_log_eq_apology hs
    refine ⟨text_apology e, before, _, id, hlog.trans hbefore, ?_, ?_⟩
    · intro e' hmem
      rcases List.mem_append.mp hmem with hmem | hmem
      · exact hfree e' hmem
      · simp at hmem
    · rw [Played.events, hlog, hbefore, events_append]
      rfl

/-- An agent whose model calls `ls`, which runs, and `rm`, which is held. -/
def restingAgent : Agent Nat :=
  Sample.scripted fun _ =>
    .ok { message := Sample.calling [Sample.call "c1" "ls", Sample.call "c2" "rm"] }

/-- An agent whose model calls `ls` once and then fails. -/
def failingAgent : Agent Nat :=
  Sample.scripted fun n =>
    if n = 1 then .ok { message := Sample.calling [Sample.call "c1" "ls"] }
      else .error (.api "down")

/-- The turn with a call that is held comes to what `done` tells, and the turn in which the model
fails comes to that failure. -/
theorem whole_eq_streamed_scripted :
    StreamsAlike restingAgent.model ∧ StreamsAlike failingAgent.model ∧
      (∀ e, .failed e ∉ (restingAgent.play .streamed (fun _ => "a0") { messages := [] } 0).log) ∧
      (∃ heard produced pending?,
        (restingAgent.play .streamed (fun _ => "a0") { messages := [] } 0).events =
          heard ++ [.done produced pending?] ∧
        (restingAgent.play .whole (fun _ => "") { messages := [] } 0).outcome =
          .ok ⟨produced, pending?.getD []⟩) ∧
      .failed (.api "down") ∈
        (failingAgent.play .streamed (fun _ => "a0") { messages := [] } 0).log ∧
      (failingAgent.play .whole (fun _ => "") { messages := [] } 0).outcome =
        .error (.api "down") := by
  have hresting : StreamsAlike restingAgent.model := streamsAs_streamOf _
  have hfailing : StreamsAlike failingAgent.model := streamsAs_streamOf _
  have hfailed : .failed (.api "down") ∈
      (failingAgent.play .streamed (fun _ => "a0") { messages := [] } 0).log :=
    List.mem_of_getElem? (i := 4) rfl
  obtain ⟨-, -, -, hdone, hdown, -⟩ := whole_eq_streamed restingAgent hresting (fun _ => "a0")
    (fun _ => "") { messages := [] } 0
  obtain ⟨-, -, -, -, herror, -⟩ :=
    whole_eq_streamed failingAgent hfailing (fun _ => "a0") (fun _ => "") { messages := [] } 0
  have hquiet :
      ∀ e, .failed e ∉ (restingAgent.play .streamed (fun _ => "a0") { messages := [] } 0).log := by
    intro e hmem
    have houtcome : (restingAgent.play .whole (fun _ => "") { messages := [] } 0).outcome = .ok _ :=
      rfl
    rw [(hdown e).mpr hmem] at houtcome
    cases houtcome
  exact ⟨hresting, hfailing, hquiet, hdone hquiet, hfailed, (herror _).mpr hfailed⟩

end Parley.Agent
