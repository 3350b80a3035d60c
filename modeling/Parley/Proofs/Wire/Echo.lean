import Parley.Proofs.Json.Members
import Parley.Proofs.Wire.Echo.Reply
import Parley.Wire.Anthropic.Request
import Parley.Wire.Gemini.Request
import Parley.Wire.Ollama.Request
import Parley.Wire.OpenAi.Request

/-!
# What a model asked for, and what it is told that it asked for

`echo`: in every format, when a reply says a text and asks for calls, its message has the text and
runs exactly these calls, and the message is sent as one entry of the model that says the same.

What the message of a reply tells is in `Echo.Reply`.  Here each format has an encoder that says of
a message what its calls run with (`says_openAi` and so on): the names are valid, so that they are
sent as they are (`Runs.sanitizeName`), and what is sent as arguments is read as the arguments of
the call (`Runs.parse`, `Runs.asks`).  Two formats send turns, and there a message that says
something has one of its own (`sent_anthropic`, `sent_gemini`), with an entry for the text and one
for each call (`saidEntries`).
-/

namespace Parley.Wire

open Chat (Arguments Message ToolCall)
open Json (Inside)
open Provider (ApiFormat)
open Tool (isValidName sanitizeName sanitizeName_of_isValidName)

/-! ### Requests -/

/-- The messages or turns of a history that are sent. -/
def sent : ApiFormat → List Message → List Json
  | .openAi, history => OpenAi.messages history
  | .anthropic, history => (Anthropic.messages history).2
  | .gemini, history => (Gemini.messages history).2
  | .ollama, history => Ollama.messages history

/-- What stands in front of an assistant who speaks first. -/
def preamble : ApiFormat → List Json
  | .anthropic => [Anthropic.placeholder]
  | _ => []

/-- The role of the model. -/
def speaker : ApiFormat → String
  | .gemini => "model"
  | _ => "assistant"

section Requests

variable {m : Message} {text : String} {asked : List Asked}

theorem Runs.argumentsOrEmpty {call : ToolCall} {c : Asked} (h : Runs call c) :
    call.argumentsOrEmpty = c.2 :=
  ToolCall.argumentsOrEmpty_eq h.arguments

theorem Runs.sanitizeName {call : ToolCall} {c : Asked} (h : Runs call c)
    (hc : isValidName c.1 = true) :
    Tool.sanitizeName call.name = c.1 := by
  rw [h.name]
  exact sanitizeName_of_isValidName hc

/-- What is sent for blank arguments is read as they are. -/
theorem Runs.parse {call : ToolCall} {c : Asked} (h : Runs call c) :
    Json.parse (if Text.allBlank call.arguments then "\x7b\x7d" else call.arguments) =
      .ok (.obj c.2) :=
  ToolCall.parseArguments_eq_ok_iff.mp h.arguments

theorem Tells.toolCalls_eq_nil_iff (h : Tells m text asked) : m.toolCalls = [] ↔ asked = [] := by
  rw [← List.length_eq_zero_iff, ← List.length_eq_zero_iff, h.calls.length_eq]

/-- A call is asked for when its name is sent as it is valid, and its arguments as an object. -/
theorem Runs.asks {sh : Shape} {call : ToolCall} {c : Asked} {spec : Json} (h : Runs call c)
    (hc : isValidName c.1 = true) (hname : sh.name spec = .str (Tool.sanitizeName call.name))
    (harguments : sh.arguments spec = .obj call.argumentsOrEmpty) : sh.Asks spec c := by
  rw [h.sanitizeName hc] at hname
  rw [h.argumentsOrEmpty] at harguments
  exact ⟨hname, Or.inl harguments⟩

/-! #### Messages with function calls -/

theorem asks_openAi {call : ToolCall} {c : Asked} (h : Runs call c) (hc : isValidName c.1 = true) :
    Shape.message.Asks (OpenAi.callSpec call) c := by
  have hname := h.sanitizeName hc
  refine ⟨?_, Or.inr ⟨rfl, _, ?_, h.parse⟩⟩
  · rw [← hname]
    simp only [Shape.message, OpenAi.callSpec, Json.member_object]
    rfl
  · simp only [Shape.message, OpenAi.callSpec, Json.member_object]
    rfl

theorem asks_ollama {call : ToolCall} {c : Asked} (h : Runs call c) (hc : isValidName c.1 = true) :
    Shape.message.Asks (Ollama.callSpec call) c := by
  refine h.asks hc ?_ ?_
  · simp only [Shape.message, Ollama.callSpec, Json.member_object]
    rfl
  · simp only [Shape.message, Ollama.callSpec, Json.member_object]
    rfl

/-- A message of the assistant in the OpenAI format, member by member. -/
theorem member_messageSpec_openAi (text : String) (calls : List ToolCall) (id? : Option String) :
    let spec := OpenAi.messageSpec ⟨.assistant, .plain text, calls, id?⟩
    spec.member "role" = .str "assistant" ∧
      spec.member "content" = (if calls ≠ [] ∧ text = "" then .null else .str text) ∧
      spec.member "tool_calls" = (if calls = [] then .null
        else .arr (calls.map OpenAi.callSpec)) := by
  intro spec
  have hmember (k : String) (hk : k ≠ "tool_call_id") : spec.member k =
      (((if calls = [] then []
        else [("tool_calls", Json.arr (calls.map OpenAi.callSpec))]).reverse ++
        [("content", if calls ≠ [] ∧ text = "" then Json.null else .str text),
          ("role", .str "assistant")]).lookup k).getD .null := by
    simp only [spec, OpenAi.messageSpec, Json.member_object, List.reverse_append,
      Json.lookup_member?_of_ne hk]
    cases calls with
    | nil => simp [Message.hasToolCalls, Chat.Content.toJson, Chat.Role.name]
    | cons call calls =>
      simp [Message.hasToolCalls, Chat.Content.toJson, Chat.Content.isEmpty, Chat.Role.name]
  -- the text of a message that asks for calls is null when it is empty
  refine ⟨?_, ?_, ?_⟩
  · rw [hmember "role" (by decide)]
    cases calls <;> rfl
  · rw [hmember "content" (by decide)]
    cases calls <;> rfl
  · rw [hmember "tool_calls" (by decide)]
    cases calls <;> rfl

/-- A message of the assistant in the format of Ollama, member by member. -/
theorem member_messageSpec_ollama (text : String) (calls : List ToolCall) (id? : Option String) :
    let spec := Ollama.messageSpec ⟨.assistant, .plain text, calls, id?⟩
    spec.member "role" = .str "assistant" ∧ spec.member "content" = .str text ∧
      spec.member "tool_calls" = (if calls = [] then .null
        else .arr (calls.map Ollama.callSpec)) := by
  intro spec
  have hspec : spec =
      .object ([("role", .str "assistant"), ("content", .str text)] ++
        if calls = [] then [] else [("tool_calls", Json.arr (calls.map Ollama.callSpec))]) := by
    cases calls <;> rfl
  simp only [hspec, Json.member_object]
  refine ⟨?_, ?_, ?_⟩ <;> cases calls <;> rfl

/-- The calls of a message are those of its list, also when it has no list of calls. -/
theorem calls_of_member {v : Json} {specs : List Json}
    (h : v.member "tool_calls" = if specs = [] then .null else .arr specs) :
    Shape.message.calls v = specs := by
  simp only [Shape.message, h]
  cases specs <;> rfl

theorem says_openAi (h : Tells m text asked) (hnames : ∀ c ∈ asked, isValidName c.1 = true) :
    (OpenAi.messageSpec m).member "role" = .str "assistant" ∧
      Shape.message.Says (OpenAi.messageSpec m) text asked ∧
      Shape.message.calls (OpenAi.messageSpec m) = m.toolCalls.map OpenAi.callSpec := by
  obtain ⟨role, content, calls, id?⟩ := m
  obtain ⟨rfl, rfl, hcalls⟩ : role = .assistant ∧ content = .plain text ∧
      List.Forall₂ Runs calls asked :=
    ⟨h.role, h.content, h.calls⟩
  obtain ⟨hrole, hcontent, hlist⟩ := member_messageSpec_openAi text calls id?
  have hlisted : Shape.message.calls (OpenAi.messageSpec ⟨.assistant, .plain text, calls, id?⟩)
      = calls.map OpenAi.callSpec := calls_of_member (by simpa using hlist)
  refine ⟨hrole, ⟨?_, ?_⟩, hlisted⟩
  · simp only [Shape.message, hcontent]
    split
    · next hempty => exact hempty.2.symm
    · exact join_toList (.str text)
  · rw [hlisted]
    exact forall₂_map_of_mem hcalls fun call _ c hc hruns => asks_openAi hruns (hnames c hc)

theorem says_ollama (h : Tells m text asked) (hnames : ∀ c ∈ asked, isValidName c.1 = true) :
    (Ollama.messageSpec m).member "role" = .str "assistant" ∧
      Shape.message.Says (Ollama.messageSpec m) text asked := by
  obtain ⟨role, content, calls, id?⟩ := m
  obtain ⟨rfl, rfl, hcalls⟩ : role = .assistant ∧ content = .plain text ∧
      List.Forall₂ Runs calls asked :=
    ⟨h.role, h.content, h.calls⟩
  obtain ⟨hrole, hcontent, hlist⟩ := member_messageSpec_ollama text calls id?
  have hlisted : Shape.message.calls (Ollama.messageSpec ⟨.assistant, .plain text, calls, id?⟩)
      = calls.map Ollama.callSpec := calls_of_member (by simpa using hlist)
  refine ⟨hrole, ?_, ?_⟩
  · simp only [Shape.message, hcontent]
    exact join_toList (.str text)
  · rw [hlisted]
    exact forall₂_map_of_mem hcalls fun call _ c hc hruns => asks_ollama hruns (hnames c hc)

/-! #### Turns -/

section Turns

variable {spec : Chat.Block → Json} {callSpec : ToolCall → Json} {calls : List ToolCall}

/-- What an assistant says in a turn: the text unless it is empty, and then the calls. -/
def saidEntries (spec : Chat.Block → Json) (callSpec : ToolCall → Json) (text : String)
    (calls : List ToolCall) : List Json :=
  (if text = "" then [] else [spec (.text text)]) ++ calls.map callSpec

theorem saidEntries_eq (spec : Chat.Block → Json) (callSpec : ToolCall → Json) (text : String)
    (calls : List ToolCall) :
    ((Chat.Content.plain text).toBlocks.filter hasContent).map spec ++ calls.map callSpec
      = saidEntries spec callSpec text calls := by
  rw [saidEntries, Chat.Content.toBlocks]
  by_cases htext : text = ""
  · simp [htext]
  · have hfilter : [Chat.Block.text text].filter hasContent = [.text text] :=
      List.filter_cons_of_pos (by simpa [hasContent] using htext)
    simp only [htext, String.isEmpty_iff, if_false, hfilter, List.map_singleton]

theorem saidEntries_ne_nil (h : Tells m text asked) (hsome : text ≠ "" ∨ asked ≠ []) :
    saidEntries spec callSpec text m.toolCalls ≠ [] := by
  intro hempty
  obtain ⟨htext, hcalls⟩ := List.append_eq_nil_iff.mp hempty
  rcases hsome with hne | hne
  · rw [if_neg hne] at htext
    cases htext
  · exact hne (h.toolCalls_eq_nil_iff.mp (List.map_eq_nil_iff.mp hcalls))

/-- The text is what is read in its entry, when nothing is read in those of calls. -/
theorem join_saidEntries {read : Json → Option String} (htext : ∀ t, read (spec (.text t)) = some t)
    (hcalls : ∀ call, read (callSpec call) = none) :
    String.join ((saidEntries spec callSpec text calls).filterMap read) = text := by
  have hnone : (calls.map callSpec).filterMap read = [] :=
    List.filterMap_eq_nil_iff.mpr (List.forall_mem_map.mpr fun call _ => hcalls call)
  rw [saidEntries, List.filterMap_append, hnone, List.append_nil]
  split
  · next hempty => rw [hempty]; rfl
  · rw [List.filterMap_cons_some (htext text)]
    simp

/-- The calls are what is read in their entries, when nothing is read in that of the text. -/
theorem filterMap_saidEntries {α : Type} {read : Json → Option α} {g : ToolCall → α}
    (htext : ∀ t, read (spec (.text t)) = none)
    (hcalls : ∀ call, read (callSpec call) = some (g call)) :
    (saidEntries spec callSpec text calls).filterMap read = calls.map g := by
  have hfirst : (if text = "" then [] else [spec (.text text)]).filterMap read = [] := by
    split
    · rfl
    · exact List.filterMap_cons_none (htext text)
  have hrest : (calls.map callSpec).filterMap read = calls.map g := by
    rw [List.filterMap_map, ← List.filterMap_eq_map]
    exact List.filterMap_congr fun call _ => hcalls call
  rw [saidEntries, List.filterMap_append, hfirst, List.nil_append, hrest]

end Turns

/-- The turn of an assistant who says something. -/
theorem push_nil_of_ne {entries : List Json} (h : entries ≠ []) (side : Side) :
    push [] ⟨side, entries⟩ = [⟨side, entries⟩] := by
  rw [push, if_neg (by simpa using h)]

theorem sent_anthropic (h : Tells m text asked) (hsome : text ≠ "" ∨ asked ≠ []) :
    sent .anthropic [m] = [Anthropic.placeholder, Anthropic.turnSpec
      ⟨.model, saidEntries Anthropic.blockSpec Anthropic.callSpec text m.toolCalls⟩] := by
  have hsystem : isSystem m = false := by rw [isSystem, h.role]; rfl
  have hsaid : Anthropic.said m =
      ⟨.model, saidEntries Anthropic.blockSpec Anthropic.callSpec text m.toolCalls⟩ := by
    rw [Anthropic.said, h.role, h.content]
    exact congrArg (Turn.mk Side.model) (saidEntries_eq ..)
  rw [sent, Anthropic.messages, List.dropWhile_cons_of_neg (by simp [hsystem])]
  simp only [List.foldl_cons, List.foldl_nil, hsaid, push_nil_of_ne (saidEntries_ne_nil h hsome)]
  -- the model may not speak first
  rfl

theorem sent_gemini (h : Tells m text asked) (hsome : text ≠ "" ∨ asked ≠ []) :
    sent .gemini [m] =
      [Gemini.turnSpec ⟨.model,
        saidEntries Gemini.blockSpec Gemini.callSpec text m.toolCalls⟩] := by
  rw [sent, Gemini.messages, List.foldl_cons, List.foldl_nil, Gemini.Reading.take,
    h.role, h.content]
  simp only [saidEntries_eq, Gemini.Reading.say, Gemini.Reading.note,
    push_nil_of_ne (saidEntries_ne_nil h hsome)]
  rfl

theorem asks_anthropic {call : ToolCall} {c : Asked} (h : Runs call c)
    (hc : isValidName c.1 = true) :
    Shape.blocks.Asks (Anthropic.callSpec call) c := by
  refine h.asks hc ?_ ?_
  · simp only [Shape.blocks, Anthropic.callSpec, Json.member_object]
    rfl
  · simp only [Shape.blocks, Anthropic.callSpec, Json.member_object]
    rfl

/-- The call in a part that holds one. -/
def askingOf (call : ToolCall) : Json :=
  .object [("name", .str (sanitizeName call.name)), ("args", .obj call.argumentsOrEmpty)]

theorem asks_gemini {call : ToolCall} {c : Asked} (h : Runs call c) (hc : isValidName c.1 = true) :
    Shape.parts.Asks (askingOf call) c := by
  refine h.asks hc ?_ ?_
  · simp only [Shape.parts, askingOf, Json.member_object]
    rfl
  · simp only [Shape.parts, askingOf, Json.member_object]
    rfl

theorem blocksOf_turnSpec (t : Turn Json) : Shape.blocksOf (Anthropic.turnSpec t) = t.entries := by
  rw [Shape.blocksOf, Anthropic.turnSpec, Json.member_object]
  rfl

theorem partsOf_turnSpec (t : Turn Json) : Shape.partsOf (Gemini.turnSpec t) = t.entries := by
  rw [Shape.partsOf, Gemini.turnSpec, Json.member_object]
  rfl

theorem says_anthropic (h : Tells m text asked) (hnames : ∀ c ∈ asked, isValidName c.1 = true) :
    let turn :=
      Anthropic.turnSpec ⟨.model,
        saidEntries Anthropic.blockSpec Anthropic.callSpec text m.toolCalls⟩
    turn.member "role" = .str "assistant" ∧ Shape.blocks.Says turn text asked ∧
      Shape.blocks.calls turn = m.toolCalls.map Anthropic.callSpec := by
  intro turn
  have htype (t : String) : (Anthropic.blockSpec (.text t)).member "type" = .str "text" := by
    rw [Anthropic.blockSpec, Json.member_object]; rfl
  have htext (t : String) : (Anthropic.blockSpec (.text t)).member "text" = .str t := by
    rw [Anthropic.blockSpec, Json.member_object]; rfl
  have hcall (call : ToolCall) : (Anthropic.callSpec call).member "type" = .str "tool_use" := by
    rw [Anthropic.callSpec, Json.member_object]; rfl
  have hlisted : Shape.blocks.calls turn = m.toolCalls.map Anthropic.callSpec := by
    simp only [Shape.blocks, turn, blocksOf_turnSpec]
    rw [← List.filterMap_eq_filter]
    refine filterMap_saidEntries (fun t => ?_) fun call => ?_
    · simp [Option.guard, htype]
    · simp [Option.guard, hcall]
  refine ⟨?_, ⟨?_, ?_⟩, hlisted⟩
  · simp only [turn, Anthropic.turnSpec, Json.member_object]
    rfl
  · simp only [Shape.blocks, turn, blocksOf_turnSpec]
    refine join_saidEntries (fun t => ?_) fun call => ?_
    · rw [htype, if_pos rfl, htext]
      rfl
    · rw [hcall, if_neg (by simp)]
  · rw [hlisted]
    exact forall₂_map_of_mem h.calls fun call _ c hc hruns => asks_anthropic hruns (hnames c hc)

theorem says_gemini (h : Tells m text asked) (hnames : ∀ c ∈ asked, isValidName c.1 = true) :
    let turn :=
      Gemini.turnSpec ⟨.model, saidEntries Gemini.blockSpec Gemini.callSpec text m.toolCalls⟩
    turn.member "role" = .str "model" ∧ Shape.parts.Says turn text asked := by
  intro turn
  refine ⟨?_, ?_, ?_⟩
  · simp only [turn, Gemini.turnSpec, Json.member_object]
    rfl
  · simp only [Shape.parts, turn, partsOf_turnSpec]
    refine join_saidEntries (fun t => ?_) fun call => ?_
    · rw [Gemini.blockSpec, Json.member_object]
      rfl
    · rw [Gemini.callSpec, Json.member_object]
      rfl
  · have hlisted : Shape.parts.calls turn = m.toolCalls.map askingOf := by
      simp only [Shape.parts, turn, partsOf_turnSpec]
      refine filterMap_saidEntries (fun t => ?_) fun call => ?_
      · rw [Gemini.blockSpec, Json.get?_object]
        rfl
      · rw [Gemini.callSpec, Json.get?_object]
        rfl
    rw [hlisted]
    exact forall₂_map_of_mem h.calls fun call _ c hc hruns => asks_gemini hruns (hnames c hc)

/-- What a message is sent as says what its calls run with. -/
theorem exists_sent_eq (f : ApiFormat) (h : Tells m text asked)
    (hnames : ∀ c ∈ asked, isValidName c.1 = true) (hsome : text ≠ "" ∨ asked ≠ []) :
    ∃ e, sent f [m] = preamble f ++ [e] ∧ e.member "role" = .str (speaker f) ∧
      (shape f).Says e text asked ∧
      (f = .openAi ∨ f = .anthropic →
        ((shape f).calls e).map (·.member "id") = m.toolCalls.map fun call => .str call.id) := by
  cases f with
  | openAi =>
    obtain ⟨hrole, hsaid, hcalls⟩ := says_openAi h hnames
    refine ⟨_, rfl, hrole, hsaid, fun _ => ?_⟩
    rw [shape, hcalls, List.map_map]
    refine List.map_congr_left fun call _ => ?_
    simp only [Function.comp_apply, OpenAi.callSpec, Json.member_object]
    rfl
  | anthropic =>
    obtain ⟨hrole, hsaid, hcalls⟩ := says_anthropic h hnames
    refine ⟨_, sent_anthropic h hsome, hrole, hsaid, fun _ => ?_⟩
    rw [shape, hcalls, List.map_map]
    refine List.map_congr_left fun call _ => ?_
    simp only [Function.comp_apply, Anthropic.callSpec, Json.member_object]
    rfl
  | gemini =>
    obtain ⟨hrole, hsaid⟩ := says_gemini h hnames
    exact ⟨_, sent_gemini h hsome, hrole, hsaid, by simp⟩
  | ollama =>
    obtain ⟨hrole, hsaid⟩ := says_ollama h hnames
    exact ⟨_, rfl, hrole, hsaid, by simp⟩

end Requests

/-! ### The statement -/

/-- **What a model asked for** is what runs and what it is told next, in every format.  When a reply
says something and asks for calls of valid names with objects as arguments, the message of the reply
has the text and the calls, the tools receive these objects, and the message is sent as one entry of
the model that says the same, with the ids of the message where the format has ids. -/
theorem echo (f : ApiFormat) {s : String} {reply entry : Json} {text : String} {asked : List Asked}
    (hread : Json.parse s = .ok reply)
    (hfloats : ∀ x, Inside (.num (.float x)) reply →
      Json.parse (Json.num (.float x)).print = .ok (.num (.float x)))
    (hentry : spoken? f reply = some entry) (hsaid : (shape f).Says entry text asked)
    (hnames : ∀ c ∈ asked, isValidName c.1 = true) (hsome : text ≠ "" ∨ asked ≠ []) :
    ∃ c, answerOf f reply = .ok c ∧ c.message.normalizeIds.text = text ∧
      List.Forall₂ (fun call asked => call.name = asked.1 ∧ call.parseArguments = .ok asked.2 ∧
        ∀ (σ : Type) (a : Agent σ) (tool : Tool σ) (world : σ),
          a.registry.lookup asked.1 = some tool →
          a.runCall call world = (.ran asked.2 (tool.handler asked.2 world).1,
            (tool.handler asked.2 world).2)) c.message.normalizeIds.toolCalls asked ∧
      ∃ e, sent f [c.message.normalizeIds] = preamble f ++ [e] ∧
        e.member "role" = .str (speaker f) ∧
        (shape f).Says e text asked ∧
        (f = .openAi ∨ f = .anthropic → ((shape f).calls e).map (·.member "id") =
          c.message.normalizeIds.toolCalls.map fun call => .str call.id) := by
  have hprintable := printable_entry (printable_of_parse hread hfloats) hentry
  have hanswer := map_answerOf hentry
  cases hc : answerOf f reply with
  | error e =>
    rw [hc] at hanswer
    cases hanswer
  | ok c =>
    rw [hc] at hanswer
    have hmessage : c.message = messageIn f entry := Except.ok.inj hanswer
    have htells : Tells c.message.normalizeIds text asked := by
      rw [hmessage]
      exact (tells_messageIn hprintable hsaid).normalizeIds
    refine ⟨c, rfl, ?_, ?_, exists_sent_eq f htells hnames hsome⟩
    · rw [Message.text, htells.content]
      rfl
    · exact htells.calls.imp fun call c h =>
        ⟨h.name, h.arguments, fun _ _ _ world htool => h.runCall htool world⟩

set_option maxRecDepth 20000 in
/-- A reply in blocks with a call that has no id, and whose arguments hold a float. -/
theorem echo_ratio :
    ∃ reply c,
      Json.parse ("\x7b\"content\":[\x7b\"type\":\"tool_use\",\"name\":\"ls\"," ++
        "\"input\":\x7b\"ratio\":0.5\x7d\x7d]\x7d") = .ok reply ∧
      answerOf .anthropic reply = .ok c ∧
      c.message.normalizeIds.toolCalls.map (fun call => (call.name, call.parseArguments.toOption)) =
        [("ls", some [("ratio", .num (.float ⟨false, 4503599627370496, -53⟩))])] := by
  let arguments : Arguments := [("ratio", .num (.float ⟨false, 4503599627370496, -53⟩))]
  let call : Json :=
    .obj [("input", .obj arguments), ("name", .str "ls"), ("type", .str "tool_use")]
  let reply : Json := .obj [("content", .arr [call])]
  have hread : Json.parse ("\x7b\"content\":[\x7b\"type\":\"tool_use\",\"name\":\"ls\"," ++
      "\"input\":\x7b\"ratio\":0.5\x7d\x7d]\x7d") = .ok reply := by rfl
  have hfloats (x : Floating.Binary) (h : Inside (.num (.float x)) reply) :
      Json.parse (Json.num (.float x)).print = .ok (.num (.float x)) := by
    have hx : x = ⟨false, 4503599627370496, -53⟩ := by
      simpa [reply, call, arguments, Json.inside_obj_iff, Json.inside_arr_iff, Json.inside_str_iff,
        Json.inside_num_iff] using h
    subst hx
    rfl
  have hsaid : (shape .anthropic).Says reply "" [("ls", arguments)] :=
    ⟨rfl, .cons ⟨rfl, Or.inl rfl⟩ .nil⟩
  obtain ⟨c, hanswer, -, hcalls, -⟩ :=
    echo .anthropic hread hfloats rfl hsaid (by decide) (Or.inr (by simp))
  obtain ⟨run, rest, ⟨hname, harguments, -⟩, hrest, heq⟩ := List.forall₂_cons_right_iff.mp hcalls
  refine ⟨reply, c, hread, hanswer, ?_⟩
  rw [heq, List.forall₂_nil_right_iff.mp hrest, List.map_singleton, hname, harguments]
  rfl

end Parley.Wire
