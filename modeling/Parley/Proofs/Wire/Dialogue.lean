import Parley.Proofs.Wire.Turns
import Parley.Wire.Anthropic.Request
import Parley.Wire.Gemini.Request

/-!
# The dialogue of a history

The Anthropic and the Gemini format send a history as a dialogue, each in JSON of its own.  Here the
dialogue itself is defined, in entries that belong to neither format (`dialogue`), together with the
way each format writes it (`Anthropic.turn`, `Gemini.turn`).

* `Anthropic.messages_eq`, `Gemini.messages_eq`: what each format sends is the dialogue of the
  history.  The Anthropic format takes the leading system messages off and translates the others one
  by one.  The Gemini format reads all of them with one `Reading`, and `Reading.Tells` is what it
  knows at each point.
* `calledName_of_mem_dialogue`: a result has the name under which its id was called last in the
  dialogue.
-/

namespace Parley.Wire

open Chat (Arguments Block Image Message Role ToolCall)
open Tool (sanitizeName)

/-! ### Entries -/

/-- What a turn is made of. -/
inductive Entry where
  /-- A text. -/
  | text (text : String)
  /-- An image that is sent along. -/
  | inlineImage (mimeType data : String)
  /-- An image at an address. -/
  | remoteImage (url : String)
  /-- A tool call. -/
  | call (id name : String) (arguments : Arguments)
  /-- The result of a tool call: the id and the name of the call, and the text. -/
  | result (id name text : String)

namespace Entry

def ofBlock : Block → Entry
  | .text t => .text t
  | .image i =>
    match i.inline? with
    | some inline => .inlineImage inline.mimeType inline.data
    | none => .remoteImage i.url

def ofCall (call : ToolCall) : Entry := .call call.id call.name call.argumentsOrEmpty

/-- The id and the name of a call. -/
def called? : Entry → Option (String × String)
  | .call id name _ => some (id, name)
  | _ => none

/-- The id and the name in a result. -/
def answered? : Entry → Option (String × String)
  | .result id name _ => some (id, name)
  | _ => none

end Entry

/-- An entry in the Anthropic format. -/
def Anthropic.entry : Entry → Json
  | .text t => .object [("type", .str "text"), ("text", .str t)]
  | .inlineImage mimeType data =>
    .object [("type", .str "image"), ("source",
      .object [("type", .str "base64"), ("media_type", .str mimeType), ("data", .str data)])]
  | .remoteImage url =>
    .object [("type", .str "image"), ("source", .object [("type", .str "url"), ("url", .str url)])]
  | .call id name arguments =>
    .object [("type", .str "tool_use"), ("id", .str id), ("name", .str (sanitizeName name)),
      ("input", .obj arguments)]
  | .result id _ text =>
    .object [("type", .str "tool_result"), ("tool_use_id", .str id), ("content", .str text)]

/-- An entry in the Gemini format. -/
def Gemini.entry : Entry → Json
  | .text t => .object [("text", .str t)]
  | .inlineImage mimeType data =>
    .object [("inlineData", .object [("mimeType", .str mimeType), ("data", .str data)])]
  | .remoteImage url => .object [("fileData", .object [("fileUri", .str url)])]
  | .call _ name arguments =>
    .object [("functionCall",
      .object [("name", .str (sanitizeName name)), ("args", .obj arguments)])]
  | .result _ name text =>
    .object [("functionResponse", .object [("name", .str (sanitizeName name)),
      ("response",
        match Json.parse text with
        | .ok (.obj members) => .obj members
        | _ => .object [("content", .str text)])])]

/-- A turn in the Anthropic format. -/
def Anthropic.turn (t : Turn Entry) : Json :=
  .object [("role", .str (match t.side with | .user => "user" | .model => "assistant")),
    ("content", .arr (t.entries.map entry))]

/-- A turn in the Gemini format. -/
def Gemini.turn (t : Turn Entry) : Json :=
  .object [("role", .str (match t.side with | .user => "user" | .model => "model")),
    ("parts", .arr (t.entries.map entry))]

/-! ### The dialogue -/

/-- The name under which an id was called last, and the id itself when it was not called.  The calls
are listed by id and name, in order. -/
def calledName (called : List (String × String)) (id : String) : String :=
  (called.reverse.lookup id).getD id

/-- The calls among entries, by id and name. -/
def calledIn (es : List Entry) : List (String × String) := es.filterMap Entry.called?

/-- The side of a role. -/
def Side.ofRole : Role → Side
  | .assistant => .model
  | .system | .user | .tool => .user

/-- The entries of a message behind some calls: one result of a tool message, the texts and images
of a message of the user or the system, and the texts that are not empty, the images and then the
calls of a message of the assistant. -/
def entries (called : List (String × String)) (m : Message) : List Entry :=
  match m.role with
  | .tool =>
    let id := m.toolCallId?.getD ""
    [.result id (calledName called id) m.text]
  | .assistant => (m.content.toBlocks.filter hasContent).map .ofBlock ++ m.toolCalls.map .ofCall
  | .user | .system => m.content.toBlocks.map .ofBlock

/-- What the messages of a history say behind some calls, message by message. -/
def said (called : List (String × String)) : List Message → List (Turn Entry)
  | [] => []
  | m :: rest =>
    ⟨Side.ofRole m.role, entries called m⟩ :: said (called ++ calledIn (entries called m)) rest

/-- **The dialogue of a history.**  The leading system messages have no part in it. -/
def dialogue (history : List Message) : List (Turn Entry) :=
  (pushAll [] (said [] (history.dropWhile isSystem))).reverse

theorem merged_dialogue (history : List Message) : Merged (dialogue history) := merged_pushAll _

/-- The dialogue holds what the messages say, in order. -/
theorem entries_dialogue (history : List Message) :
    (dialogue history).flatMap (·.entries)
      = (said [] (history.dropWhile isSystem)).flatMap (·.entries) := entries_pushAll _

/-! ### Calls and results among the entries -/

theorem called?_ofBlock (b : Block) : (Entry.ofBlock b).called? = none := by
  cases b with
  | text t => rfl
  | image i =>
    unfold Entry.ofBlock
    cases h : i.inline? <;> simp [h, Entry.called?]

theorem answered?_ofBlock (b : Block) : (Entry.ofBlock b).answered? = none := by
  cases b with
  | text t => rfl
  | image i =>
    unfold Entry.ofBlock
    cases h : i.inline? <;> simp [h, Entry.answered?]

theorem calledIn_append (es es' : List Entry) :
    calledIn (es ++ es') = calledIn es ++ calledIn es' :=
  List.filterMap_append

theorem calledIn_map_ofBlock (bs : List Block) : calledIn (bs.map .ofBlock) = [] := by
  simp [calledIn, called?_ofBlock]

theorem calledIn_map_ofCall (calls : List ToolCall) :
    calledIn (calls.map .ofCall) = calls.map fun call => (call.id, call.name) := by
  simp [calledIn, List.filterMap_map, Function.comp_def, Entry.ofCall, Entry.called?]

/-- The calls of a message are those that it makes on behalf of the assistant. -/
theorem calledIn_entries (called : List (String × String)) (m : Message) :
    calledIn (entries called m) =
      if m.role = .assistant then m.toolCalls.map fun call => (call.id, call.name) else [] := by
  unfold entries
  cases m.role with
  | assistant =>
    simp only [if_true]
    rw [calledIn_append, calledIn_map_ofBlock, calledIn_map_ofCall, List.nil_append]
  | tool => rfl
  | user => exact calledIn_map_ofBlock _
  | system => exact calledIn_map_ofBlock _

/-- Only a tool message has a result among its entries, and nothing else. -/
theorem answered?_of_mem_entries {called : List (String × String)} {m : Message}
    (h : m.role ≠ .tool) : ∀ e ∈ entries called m, e.answered? = none := by
  intro e he
  unfold entries at he
  cases hrole : m.role with
  | tool => exact absurd hrole h
  | assistant =>
    rw [hrole] at he
    rcases List.mem_append.mp he with hb | hc
    · obtain ⟨b, -, rfl⟩ := List.mem_map.mp hb
      exact answered?_ofBlock b
    · obtain ⟨call, -, rfl⟩ := List.mem_map.mp hc
      rfl
  | user =>
    rw [hrole] at he
    obtain ⟨b, -, rfl⟩ := List.mem_map.mp he
    exact answered?_ofBlock b
  | system =>
    rw [hrole] at he
    obtain ⟨b, -, rfl⟩ := List.mem_map.mp he
    exact answered?_ofBlock b

theorem said_append (called : List (String × String)) (h₁ h₂ : List Message) :
    said called (h₁ ++ h₂)
      = said called h₁ ++ said (called ++ calledIn ((said called h₁).flatMap (·.entries))) h₂ := by
  induction h₁ generalizing called with
  | nil => simp [said, calledIn]
  | cons m rest ih =>
    rw [List.cons_append, said, ih, said, List.cons_append, List.flatMap_cons, calledIn_append,
      List.append_assoc]

theorem calledName_of_mem_said {called : List (String × String)} {history : List Message}
    {earlier later : List Entry} {id name text : String}
    (h : (said called history).flatMap (·.entries) = earlier ++ .result id name text :: later) :
    name = calledName (called ++ calledIn earlier) id := by
  induction history generalizing called earlier with
  | nil => simp [said] at h
  | cons m rest ih =>
    simp only [said, List.flatMap_cons] at h
    -- the result stands behind the entries of the first message, or is among them
    rcases List.append_eq_append_iff.mp h with ⟨behind, rfl, hrest⟩ | ⟨behind, hentries, hresult⟩
    · rw [ih hrest, calledIn_append, List.append_assoc]
    · cases behind with
      | nil =>
        rw [List.append_nil] at hentries
        have hname :
            name = calledName ((called ++ calledIn (entries called m)) ++ calledIn []) id :=
          ih hresult.symm
        rwa [hentries, calledIn, calledIn, List.filterMap_nil, List.append_nil] at hname
      | cons e behind =>
        obtain ⟨rfl, -⟩ := List.cons.inj hresult
        have hmem : Entry.result id name text ∈ entries called m := by simp [hentries]
        have hrole : m.role = .tool := by
          by_contra hrole
          cases answered?_of_mem_entries hrole _ hmem
        -- a tool message says its result and nothing else
        simp only [entries, hrole] at hentries
        cases earlier with
        | nil =>
          obtain ⟨hresult, -⟩ := List.cons.inj hentries
          cases hresult
          simp [calledIn]
        | cons e' earlier =>
          obtain ⟨-, htail⟩ := List.cons.inj hentries
          simp at htail

/-- **Names of results.**  A result has the name under which its id was called last before it, or
its id for a name. -/
theorem calledName_of_mem_dialogue {history : List Message} {earlier later : List Entry}
    {id name text : String}
    (h : (dialogue history).flatMap (·.entries) = earlier ++ .result id name text :: later) :
    name = calledName (calledIn earlier) id := by
  rw [entries_dialogue] at h
  exact calledName_of_mem_said h

/-! ### The Anthropic format -/

namespace Anthropic

theorem blockSpec_eq : blockSpec = entry ∘ .ofBlock := by
  funext b
  cases b with
  | text t => rfl
  | image i =>
    show blockSpec (.image i) = entry (.ofBlock (.image i))
    unfold blockSpec imageSource Entry.ofBlock
    cases h : i.inline? <;> simp [h, entry]

theorem callSpec_eq : callSpec = entry ∘ .ofCall := rfl

theorem said_eq (called : List (String × String)) (m : Message) :
    said m = Turn.map entry ⟨Side.ofRole m.role, entries called m⟩ := by
  unfold said entries Turn.map
  cases m.role <;> simp [Side.ofRole, blockSpec_eq, callSpec_eq, resultSpec, entry]

theorem map_said_eq (called : List (String × String)) (history : List Message) :
    history.map said = (Wire.said called history).map (Turn.map entry) := by
  induction history generalizing called with
  | nil => rfl
  | cons m rest ih => rw [List.map_cons, Wire.said, List.map_cons, ← said_eq, ← ih]

theorem member_turn (t : Turn Entry) :
    (turn t).member "role" = .str (roleOf t.side) ∧
      (turn t).member "content" = .arr (t.entries.map entry) := by
  obtain ⟨side, es⟩ := t
  cases side <;> exact ⟨rfl, rfl⟩

theorem turnSpec_map : turnSpec ∘ Turn.map entry = turn := by
  funext t
  obtain ⟨side, es⟩ := t
  cases side <;> rfl

/-- What the Anthropic format sends is the dialogue, with the placeholder in front unless the user
speaks first. -/
theorem messages_eq (history : List Message) :
    messages history =
      (systemText? ((history.takeWhile isSystem).map Message.text),
        (if opensWithUser (dialogue history) then [] else [placeholder])
          ++ (dialogue history).map turn) := by
  have hturns : ((history.dropWhile isSystem).foldl (fun turns m => push turns (said m)) []).reverse
      = (dialogue history).map (Turn.map entry) := by
    rw [← List.foldl_map, map_said_eq []]
    show (pushAll (([] : List (Turn Entry)).map (Turn.map entry)) _).reverse = _
    rw [pushAll_map, ← List.map_reverse]
    rfl
  have hopens : opensWithUser ((dialogue history).map (Turn.map entry))
      = opensWithUser (dialogue history) := by
    cases dialogue history <;> rfl
  unfold messages turnSpecs
  simp only [hturns, hopens, List.map_map, turnSpec_map]
  split <;> rfl

end Anthropic

/-! ### The Gemini format -/

namespace Gemini

theorem blockSpec_eq : blockSpec = entry ∘ .ofBlock := by
  funext b
  cases b with
  | text t => rfl
  | image i =>
    show blockSpec (.image i) = entry (.ofBlock (.image i))
    unfold blockSpec Entry.ofBlock
    cases h : i.inline? <;> simp [h, entry]

theorem callSpec_eq : callSpec = entry ∘ .ofCall := rfl

namespace Reading

variable {r : Reading} {called : List (String × String)} {ts : List (Turn Entry)}

/-- Whether a reading knows of these calls, and has told these turns. -/
structure Tells (r : Reading) (called : List (String × String)) (ts : List (Turn Entry)) :
    Prop where
  /-- It finds the name under which an id was called last. -/
  lookup : ∀ id, r.names.lookup id = called.reverse.lookup id
  /-- Its turns are these, in the format. -/
  turns : r.turns = ts.map (Turn.map entry)

theorem lookup_note (r : Reading) (calls : List ToolCall) (id : String) :
    (r.note calls).names.lookup id
      = ((calls.map fun call => (call.id, call.name)).reverse.lookup id).or
          (r.names.lookup id) := by
  unfold note
  -- the name that is put last is found first
  induction calls generalizing r with
  | nil => rfl
  | cons call calls ih =>
    have hput := ih { r with names := Entries.put call.id call.name r.names }
    rw [List.foldl_cons, hput, Entries.lookup_put, List.map_cons, List.reverse_cons,
      List.lookup_append, Option.or_assoc, Entries.lookup_cons]
    split <;> rfl

theorem Tells.note (h : r.Tells called ts) (calls : List ToolCall) :
    (r.note calls).Tells (called ++ calls.map fun call => (call.id, call.name)) ts := by
  refine ⟨fun id => ?_, h.turns⟩
  rw [lookup_note, h.lookup, List.reverse_append, List.lookup_append]

theorem Tells.say (h : r.Tells called ts) (side : Side) (es : List Entry) :
    (r.say side (es.map entry)).Tells called (push ts ⟨side, es⟩) := by
  refine ⟨h.lookup, ?_⟩
  show push r.turns (Turn.map entry ⟨side, es⟩) = _
  rw [h.turns, push_map]

/-- A message that is not of the leading ones is told as the dialogue has it. -/
theorem Tells.take_eq (h : r.Tells called ts) {m : Message}
    (hm : r.isLeading = false ∨ isSystem m = false) :
    r.take m = (r.note (if m.role = .assistant then m.toolCalls else [])).say (Side.ofRole m.role)
      ((entries called m).map entry) := by
  unfold Reading.take entries
  cases hrole : m.role with
  | system =>
    -- a system message that is told is not a leading one
    have hlead : r.isLeading = false := hm.resolve_right (by simp [isSystem, hrole])
    simp only [hlead, blockSpec_eq, ← List.map_map]
    rfl
  | user =>
    simp only [blockSpec_eq, ← List.map_map]
    rfl
  | assistant =>
    simp only [blockSpec_eq, callSpec_eq, ← List.map_map, ← List.map_append]
    rfl
  | tool =>
    simp only [h.lookup]
    rfl

theorem Tells.take (h : r.Tells called ts) {m : Message}
    (hm : r.isLeading = false ∨ isSystem m = false) :
    (r.take m).isLeading = false ∧ (r.take m).texts = r.texts ∧
      (r.take m).Tells (called ++ calledIn (entries called m))
        (push ts ⟨Side.ofRole m.role, entries called m⟩) := by
  have hcalls : calledIn (entries called m)
      = (if m.role = .assistant then m.toolCalls else []).map fun call => (call.id, call.name) := by
    rw [calledIn_entries]
    split <;> rfl
  rw [h.take_eq hm, hcalls]
  exact ⟨rfl, rfl, (h.note _).say _ _⟩

theorem Tells.foldl_take (h : r.Tells called ts) (hlead : r.isLeading = false)
    (history : List Message) :
    (history.foldl Reading.take r).texts = r.texts ∧
      (history.foldl Reading.take r).turns
        = (pushAll ts (said called history)).map (Turn.map entry) := by
  induction history generalizing r called ts with
  | nil => exact ⟨rfl, h.turns⟩
  | cons m rest ih =>
    obtain ⟨hlead', htexts, htells⟩ := h.take (m := m) (Or.inl hlead)
    obtain ⟨htexts', hturns⟩ := ih htells hlead'
    exact ⟨htexts'.trans htexts, hturns⟩

/-- What has been read of a history behind leading system messages. -/
theorem foldl_take_leading (texts : List String) (history : List Message) :
    (history.foldl Reading.take { texts }).texts
        = texts ++ (history.takeWhile isSystem).map Message.text ∧
      (history.foldl Reading.take { texts }).turns
        = (pushAll [] (said [] (history.dropWhile isSystem))).map (Turn.map entry) := by
  induction history generalizing texts with
  | nil => exact ⟨(List.append_nil texts).symm, rfl⟩
  | cons m rest ih =>
    rw [List.foldl_cons]
    cases hm : isSystem m with
    | true =>
      have hrole : m.role = .system := by simpa [isSystem] using hm
      have htake : Reading.take { texts } m = { texts := texts ++ [m.text] } := by
        simp [Reading.take, hrole]
      rw [htake, List.takeWhile_cons_of_pos hm, List.dropWhile_cons_of_pos hm, List.map_cons,
        List.append_cons texts m.text (List.map Message.text _)]
      exact ih (texts ++ [m.text])
    | false =>
      -- from here on all messages are told
      have hstart : Reading.Tells { texts } [] [] := ⟨fun _ => rfl, rfl⟩
      obtain ⟨hlead, htexts, htells⟩ := hstart.take (m := m) (Or.inr hm)
      obtain ⟨htexts', hturns⟩ := htells.foldl_take hlead rest
      have hm' : ¬ isSystem m = true := by simp [hm]
      rw [List.takeWhile_cons_of_neg hm', List.dropWhile_cons_of_neg hm', List.map_nil,
        List.append_nil]
      exact ⟨htexts'.trans htexts, hturns⟩

end Reading

theorem turnSpec_map : turnSpec ∘ Turn.map entry = turn := by
  funext t
  obtain ⟨side, es⟩ := t
  cases side <;> rfl

/-- What the Gemini format sends is the dialogue. -/
theorem messages_eq (history : List Message) :
    messages history =
      (systemText? ((history.takeWhile isSystem).map Message.text),
        (dialogue history).map turn) := by
  obtain ⟨htexts, hturns⟩ := Reading.foldl_take_leading [] history
  simp only [messages, htexts, hturns, List.nil_append, ← List.map_reverse, List.map_map,
    turnSpec_map]
  rfl

end Gemini

end Parley.Wire
