import Mathlib.Data.List.Forall2
import Parley.Agent.Turn
import Parley.Proofs.Chat.Arguments
import Parley.Proofs.Chat.CallIds
import Parley.Proofs.Json.RoundTrip
import Parley.Provider.Ability
import Parley.Wire.Anthropic.Reply
import Parley.Wire.Gemini.Reply
import Parley.Wire.Ollama.Reply
import Parley.Wire.OpenAi.Reply

/-!
# What is said in a reply

A `Shape` says where a format keeps the texts and the calls of what a model says, in a reply and in
a request alike, and `Shape.Says` what a model says in an entry of that shape.  `map_answerOf` and
`tells_messageIn` are about all four formats: what a reply says is what its message tells, a text
and calls that run (`Runs`).

Arguments become text on the way.  An object is printed, and read back because it stands in a reply
that was read (`printable_of_parse`, `runs_of_print`); the text of an object is taken as it is.
When the calls get other ids they run all the same (`forall₂_uniqueIds`).
-/

namespace Parley.Wire

open Chat (Arguments Message ToolCall)
open Json (Inside)
open Provider (ApiFormat)

/-! ### What is said in an entry -/

/-- A call as it is asked for: the name of a tool and the arguments. -/
abbrev Asked := String × Arguments

/-- Where a format keeps what a model says. -/
structure Shape where
  /-- The texts of an entry. -/
  texts : Json → List String
  /-- The calls of an entry. -/
  calls : Json → List Json
  /-- The name of a call. -/
  name : Json → Json
  /-- The arguments of a call. -/
  arguments : Json → Json
  /-- Whether the text of an object may stand for it. -/
  takesText : Bool

namespace Shape

/-- Whether a call asks for something. -/
def Asks (sh : Shape) (call : Json) (asked : Asked) : Prop :=
  sh.name call = .str asked.1 ∧
    (sh.arguments call = .obj asked.2 ∨
      sh.takesText = true ∧ ∃ s, sh.arguments call = .str s ∧ Json.parse s = .ok (.obj asked.2))

/-- Whether an entry says a text, in one or several parts, and asks for calls. -/
structure Says (sh : Shape) (entry : Json) (text : String) (asked : List Asked) : Prop where
  text : String.join (sh.texts entry) = text
  calls : List.Forall₂ sh.Asks (sh.calls entry) asked

/-- A message object with function calls. -/
def message : Shape where
  texts body := (body.member "content").str?.toList
  calls body := (body.member "tool_calls").items?.getD []
  name call := (call.member "function").member "name"
  arguments call := (call.member "function").member "arguments"
  takesText := true

/-- The blocks of a turn. -/
def blocksOf (turn : Json) : List Json := (turn.member "content").items?.getD []

/-- A turn of blocks. -/
def blocks : Shape where
  texts turn := (blocksOf turn).filterMap fun block =>
    if block.member "type" = .str "text" then (block.member "text").str? else none
  calls turn := (blocksOf turn).filter fun block => block.member "type" = .str "tool_use"
  name block := block.member "name"
  arguments block := block.member "input"
  takesText := false

/-- The parts of a turn. -/
def partsOf (turn : Json) : List Json := (turn.member "parts").items?.getD []

/-- A turn of parts. -/
def parts : Shape where
  texts turn := (partsOf turn).filterMap fun part => (part.member "text").str?
  calls turn := (partsOf turn).filterMap (·.get? "functionCall")
  name call := call.member "name"
  arguments call := call.member "args"
  takesText := false

end Shape

/-! ### The formats -/

/-- The shape of what a model says in a format. -/
def shape : ApiFormat → Shape
  | .openAi | .ollama => .message
  | .anthropic => .blocks
  | .gemini => .parts

/-- What a model says in a reply; nothing in a reply that reports an error. -/
def spoken? : ApiFormat → Json → Option Json
  | .openAi, reply =>
    if (reply.get? "error").isSome then none
    else (((reply.get? "choices").bind (·.item? 0)).bind (·.get? "message")).filter Json.isObject
  | .anthropic, reply =>
    if ((reply.get? "content").bind Json.items?).isSome then some reply else none
  | .gemini, reply => ((reply.get? "candidates").bind (·.item? 0)).map (·.member "content")
  | .ollama, reply =>
    if (Ollama.errorText? reply).isSome then none else (reply.get? "message").filter Json.isObject

/-- The answer of a reply. -/
def answerOf : ApiFormat → Json → Except Failure Completion
  | .openAi => OpenAi.completion
  | .anthropic => Anthropic.completion
  | .gemini => Gemini.completion
  | .ollama => Ollama.completion

/-! ### Calls that run -/

/-- Whether a call runs what is asked for, whichever agent has the tool. -/
structure Runs (call : ToolCall) (asked : Asked) : Prop where
  name : call.name = asked.1
  arguments : call.parseArguments = .ok asked.2

/-- The handler receives the arguments. -/
theorem Runs.runCall {call : ToolCall} {asked : Asked} (h : Runs call asked) {σ : Type}
    {a : Agent σ} {tool : Tool σ} (htool : a.registry.lookup asked.1 = some tool) (world : σ) :
    a.runCall call world = (.ran asked.2 (tool.handler asked.2 world).1,
      (tool.handler asked.2 world).2) := by
  rw [Agent.runCall, h.name, htool, h.arguments]

theorem runs_of_text {id name s : String} {members : Arguments}
    (h : Json.parse s = .ok (.obj members)) :
    Runs ⟨id, name, s⟩ (name, members) := ⟨rfl, ToolCall.parseArguments_of_parse h⟩

theorem runs_of_print {id name : String} {members : Arguments}
    (h : (Json.obj members).Within Json.Number.Legible Json.maxDepth) :
    Runs ⟨id, name, (Json.obj members).print⟩ (name, members) :=
  runs_of_text (Json.parse_print_of_within h)

/-- Neither the name nor the arguments of a call depend on its id. -/
theorem Runs.withId {call : ToolCall} {asked : Asked} (h : Runs call asked) (id : String) :
    Runs { call with id } asked where
  name := h.name
  arguments := by
    have hparse := ToolCall.parseArguments_eq_ok_iff.mp h.arguments
    exact ToolCall.parseArguments_eq_ok_iff.mpr hparse

theorem forall₂_uniqueIds {calls : List ToolCall} {asked : List Asked}
    (h : List.Forall₂ Runs calls asked) :
    List.Forall₂ Runs (Message.uniqueIds calls) asked := by
  have hmap :=
    Message.map_uniqueIds (f := fun call : ToolCall => { call with id := "" })
      (fun _ _ => rfl) calls
  -- without their ids, the calls are the same before and after
  have hcleared : List.Forall₂ Runs (calls.map fun call => { call with id := "" }) asked :=
    List.forall₂_map_left_iff.mpr (h.imp fun _ _ hruns => hruns.withId "")
  rw [← hmap] at hcleared
  exact (List.forall₂_map_left_iff.mp hcleared).imp fun call _ hruns => hruns.withId call.id

/-! ### Replies -/

/-- Whether an answer holds what is said: a message of the assistant with the text, and calls that
run. -/
structure Tells (m : Message) (text : String) (asked : List Asked) : Prop where
  role : m.role = .assistant
  content : m.content = .plain text
  calls : List.Forall₂ Runs m.toolCalls asked

theorem Tells.normalizeIds {m : Message} {text : String} {asked : List Asked}
    (h : Tells m text asked) :
    Tells m.normalizeIds text asked := ⟨h.role, h.content, forall₂_uniqueIds h.calls⟩

section Replies

variable {reply entry : Json} {text : String} {asked : List Asked}

/-- Objects that stand in a reply are read back when they are printed. -/
def Printable (reply : Json) : Prop :=
  ∀ members, Inside (.obj members) reply →
    (Json.obj members).Within Json.Number.Legible Json.maxDepth

theorem printable_of_parse {s : String} (hread : Json.parse s = .ok reply)
    (hfloats : ∀ x, Inside (.num (.float x)) reply →
      Json.parse (Json.num (.float x)).print = .ok (.num (.float x))) : Printable reply :=
  fun _ hinside => ((Json.within_of_parse hread).legible hfloats).of_inside hinside

theorem Printable.of_inside (h : Printable reply) (hentry : Inside entry reply) : Printable entry :=
  fun members hinside => h members (hinside.trans hentry)

theorem join_toList (v : Json) : String.join v.str?.toList = v.strOrEmpty := by
  cases v <;> simp [Json.str?, Json.strOrEmpty, String.join_cons]

theorem join_filterMap {α : Type} (g : α → Option String) (xs : List α) :
    String.join (xs.filterMap g) = String.join (xs.map fun x => (g x).getD "") := by
  induction xs with
  | nil => rfl
  | cons x xs ih =>
    rw [List.map_cons, String.join_cons, ← ih]
    cases hx : g x with
    | none => rw [List.filterMap_cons_none hx, Option.getD_none, String.empty_append]
    | some s => rw [List.filterMap_cons_some hx, String.join_cons, Option.getD_some]

theorem filterMap_ite {α β : Type} (p : α → Bool) (g : α → β) (xs : List α) :
    xs.filterMap (fun x => if p x = true then some (g x) else none) = (xs.filter p).map g := by
  induction xs with
  | nil => rfl
  | cons x xs ih =>
    cases hx : p x with
    | true => simp [hx, ih]
    | false => simp [hx, ih]

theorem str?_eq_some_iff {v : Json} {s : String} : v.str? = some s ↔ v = .str s := by
  cases v <;> simp [Json.str?]

theorem inside_of_mem_items {v a : Json} {name : String} (h : a ∈ (v.member name).items?.getD []) :
    Inside a v := by
  cases hv : v.member name with
  | arr items =>
    rw [hv] at h
    have hmember : Inside (v.member name) v :=
      Json.inside_member (by rw [hv]; exact Json.noConfusion)
    rw [hv] at hmember
    exact Inside.trans (.item h .self) hmember
  | _ =>
    rw [hv] at h
    cases h

theorem inside_of_member_eq_obj {v : Json} {name : String} {members : Arguments}
    (h : v.member name = .obj members) :
    Inside (.obj members) v := by
  rw [← h]
  exact Json.inside_member (by rw [h]; exact Json.noConfusion)

/-- A call runs what it asks for when its arguments become text as they should. -/
theorem Shape.Asks.runs {sh : Shape} {call : Json} {c : Asked} {id : String}
    {textOf : Json → String} (h : sh.Asks call c)
    (hobject : ∀ members, sh.arguments call = .obj members →
      (Json.obj members).Within Json.Number.Legible Json.maxDepth)
    (hprint : ∀ members, textOf (.obj members) = (Json.obj members).print)
    (htext : sh.takesText = true → ∀ s, textOf (.str s) = s) :
    Runs ⟨id, (sh.name call).strOrEmpty, textOf (sh.arguments call)⟩ c := by
  obtain ⟨hname, hargs | ⟨htakes, s, hargs, hparse⟩⟩ := h
  · rw [hname, hargs, hprint]
    exact runs_of_print (hobject c.2 hargs)
  · rw [hname, hargs, htext htakes]
    exact runs_of_text hparse

theorem forall₂_map_of_mem {α β γ : Type} {R : α → γ → Prop} {S : β → γ → Prop} {f : α → β}
    {xs : List α} {ys : List γ} (h : List.Forall₂ R xs ys)
    (hf : ∀ x ∈ xs, ∀ y ∈ ys, R x y → S (f x) y) :
    List.Forall₂ S (xs.map f) ys := by
  induction h with
  | nil => exact .nil
  | @cons x y xs ys hxy _ ih =>
    refine .cons (hf x List.mem_cons_self y List.mem_cons_self hxy) (ih fun x' hx' y' hy' => ?_)
    exact hf x' (List.mem_cons_of_mem _ hx') y' (List.mem_cons_of_mem _ hy')

/-- The message that an entry of a reply is read as. -/
def messageIn : ApiFormat → Json → Message
  | .openAi, entry => OpenAi.messageOf entry
  | .anthropic, entry => Anthropic.messageOf (Shape.blocksOf entry)
  | .gemini, entry => Gemini.messageOf (Shape.partsOf entry)
  | .ollama, entry => Ollama.messageOf entry (entry.member "content").strOrEmpty

/-- A reply that says something is answered with its message. -/
theorem map_answerOf {f : ApiFormat} (h : spoken? f reply = some entry) :
    (answerOf f reply).map Completion.message = .ok (messageIn f entry) := by
  cases f with
  | openAi =>
    rw [spoken?] at h
    split at h
    · cases h
    · rename_i herror
      have hnone : reply.get? "error" = none := by simpa using herror
      obtain ⟨hentry, hobject⟩ := Option.filter_eq_some_iff.mp h
      obtain ⟨choice, hchoice, hmessage⟩ := Option.bind_eq_some_iff.mp hentry
      have hfilter : (choice.get? "message").filter Json.isObject = some entry :=
        Option.filter_eq_some_iff.mpr ⟨hmessage, hobject⟩
      rw [answerOf, OpenAi.completion, hnone, OpenAi.message, hchoice]
      simp only [hfilter]
      rfl
  | anthropic =>
    rw [spoken?] at h
    split at h
    · rename_i hblocks
      cases h
      obtain ⟨blocks, hblocks⟩ := Option.isSome_iff_exists.mp hblocks
      have hof : Shape.blocksOf reply = blocks := by
        obtain ⟨content, hcontent, hitems⟩ := Option.bind_eq_some_iff.mp hblocks
        rw [Shape.blocksOf, Json.member, hcontent, Option.getD_some, hitems, Option.getD_some]
      rw [answerOf, Anthropic.completion, Anthropic.message, hblocks, messageIn, hof]
      rfl
    · cases h
  | gemini =>
    obtain ⟨candidate, hcandidate, rfl⟩ := Option.map_eq_some_iff.mp h
    rw [answerOf, Gemini.completion, Gemini.message, hcandidate]
    rfl
  | ollama =>
    rw [spoken?] at h
    split at h
    · cases h
    · rename_i herror
      have hnone : Ollama.errorText? reply = none := by simpa using herror
      rw [answerOf, Ollama.completion, hnone]
      simp only [h]
      rfl

theorem printable_entry {f : ApiFormat} (hreply : Printable reply)
    (h : spoken? f reply = some entry) :
    Printable entry := by
  cases f with
  | openAi =>
    rw [spoken?] at h
    split at h
    · cases h
    · obtain ⟨hentry, -⟩ := Option.filter_eq_some_iff.mp h
      obtain ⟨choice, hchoice, hmessage⟩ := Option.bind_eq_some_iff.mp hentry
      obtain ⟨choices, hchoices, hitem⟩ := Option.bind_eq_some_iff.mp hchoice
      exact hreply.of_inside ((Json.inside_of_get? hmessage).trans
        ((Json.inside_of_item? hitem).trans (Json.inside_of_get? hchoices)))
  | anthropic =>
    rw [spoken?] at h
    split at h
    · cases h
      exact hreply
    · cases h
  | gemini =>
    obtain ⟨candidate, hcandidate, rfl⟩ := Option.map_eq_some_iff.mp h
    obtain ⟨candidates, hcandidates, hitem⟩ := Option.bind_eq_some_iff.mp hcandidate
    -- a candidate without content says nothing, and is a reply all the same
    by_cases hnull : candidate.member "content" = .null
    · rw [hnull]
      intro members hinside
      cases hinside
    · exact hreply.of_inside ((Json.inside_member hnull).trans
        ((Json.inside_of_item? hitem).trans (Json.inside_of_get? hcandidates)))
  | ollama =>
    rw [spoken?] at h
    split at h
    · cases h
    · exact hreply.of_inside (Json.inside_of_get? (Option.filter_eq_some_iff.mp h).1)

/-- Function calls of a message object run. -/
theorem forall₂_runs_message {textOf : Json → String} (hentry : Printable entry)
    (hprint : ∀ members, textOf (.obj members) = (Json.obj members).print)
    (htext : ∀ s, textOf (.str s) = s) (h : Shape.message.Says entry text asked) :
    List.Forall₂ Runs
      (((entry.member "tool_calls").items?.getD []).map fun call =>
        ⟨(call.member "id").strOrEmpty, ((call.member "function").member "name").strOrEmpty,
          textOf ((call.member "function").member "arguments")⟩) asked := by
  refine forall₂_map_of_mem h.calls fun call hcall c _ hasks =>
    hasks.runs (fun members hargs => ?_) hprint fun _ => htext
  have hfunction : Inside (.obj members) (call.member "function") := inside_of_member_eq_obj hargs
  -- what stands there is not null, so it is a member of the call
  have hcallInside : Inside (call.member "function") call :=
    Json.inside_member fun hnull => by rw [hnull] at hfunction; cases hfunction
  exact hentry members (hfunction.trans (hcallInside.trans (inside_of_mem_items hcall)))

theorem tells_messageIn {f : ApiFormat} (hentry : Printable entry)
    (h : (shape f).Says entry text asked) :
    Tells (messageIn f entry) text asked := by
  cases f with
  | openAi =>
    refine ⟨rfl, ?_, forall₂_runs_message hentry (fun _ => rfl) (fun _ => rfl) h⟩
    rw [← h.text]
    exact congrArg Chat.Content.plain (join_toList _).symm
  | ollama =>
    refine ⟨rfl, ?_, forall₂_runs_message hentry (fun _ => rfl) (fun _ => rfl) h⟩
    rw [← h.text]
    exact congrArg Chat.Content.plain (join_toList _).symm
  | anthropic =>
    have hcalls :
        (messageIn .anthropic entry).toolCalls = (Shape.blocks.calls entry).map fun block =>
        ⟨(block.member "id").strOrEmpty, (block.member "name").strOrEmpty,
          Anthropic.inputText (block.member "input")⟩ := by
      show (Shape.blocksOf entry).filterMap Anthropic.blockCall? = _
      rw [Shape.blocks, ← filterMap_ite]
      refine List.filterMap_congr fun block _ => ?_
      simp only [Anthropic.blockCall?, str?_eq_some_iff, decide_eq_true_eq]
    have htext (block : Json) : Anthropic.blockText block =
        (if block.member "type" = .str "text" then (block.member "text").str?
          else none).getD "" := by
      simp only [Anthropic.blockText, str?_eq_some_iff]
      split <;> rfl
    refine ⟨rfl, ?_, ?_⟩
    · rw [← h.text]
      refine congrArg Chat.Content.plain ?_
      show String.join ((Shape.blocksOf entry).map Anthropic.blockText) =
        String.join (Shape.blocks.texts entry)
      rw [Shape.blocks, join_filterMap]
      exact congrArg String.join (List.map_congr_left fun block _ => htext block)
    · rw [hcalls]
      refine forall₂_map_of_mem h.calls fun block hblock c _ hasks =>
        hasks.runs (fun members hargs => ?_) (fun _ => rfl) (fun hno => by cases hno)
      have hblock : block ∈ Shape.blocksOf entry := (List.mem_filter.mp hblock).1
      exact hentry members ((inside_of_member_eq_obj hargs).trans (inside_of_mem_items hblock))
  | gemini =>
    have hcalls : (messageIn .gemini entry).toolCalls = (Shape.parts.calls entry).map fun call =>
        ⟨(call.member "id").strOrEmpty, (call.member "name").strOrEmpty,
          Gemini.argumentText (call.member "args")⟩ := List.map_filterMap.symm
    refine ⟨rfl, ?_, ?_⟩
    · rw [← h.text]
      refine congrArg Chat.Content.plain ?_
      show _ = String.join (Shape.parts.texts entry)
      rw [Shape.parts, join_filterMap]
      rfl
    · rw [hcalls]
      refine forall₂_map_of_mem h.calls fun call hcall c _ hasks =>
        hasks.runs (fun members hargs => ?_) (fun _ => rfl) (fun hno => by cases hno)
      obtain ⟨part, hpart, hget⟩ := List.mem_filterMap.mp hcall
      exact hentry members ((inside_of_member_eq_obj hargs).trans
        ((Json.inside_of_get? hget).trans (inside_of_mem_items hpart)))

end Replies

end Parley.Wire
