import Mathlib.Data.List.Forall2
import Parley.Proofs.Chat.Frames

/-!
# The spellings of a message

A message is read from more values than the one it is written as.  A `Spelling` of it is an object
in which fields without a meaning may stand beside the others, an empty body may be left out or
`null`, and the id, the kind, the name and the arguments of a call may be left out where they are
empty.

`written_read_back`: a message is read from every spelling of it, and from its written form, as a
value and as a text.  Whatever value a message was read from, it is thus read again from what it is
written as, so that nothing changes however often a history is sent back and forth.

Each kind of value has its own spellings and one lemma that says they are read
(`ofJson?_of_spelling`).  Fields are found by their names, so the other members of an object do not
matter.
-/

namespace Parley

namespace Json

variable {v : Json} {place n : Nat} {name : String}

theorem isRecord_of_isObject (h : v.isObject = true) : v.isRecord n = true := by
  cases v with
  | obj members => rfl
  | _ => cases h

theorem field?_of_isObject (h : v.isObject = true) : v.field? place name = v.get? name := by
  cases v with
  | obj members => rfl
  | _ => cases h

theorem isObject_of_get? {a : Json} (h : v.get? name = some a) : v.isObject = true := by
  cases v with
  | obj members => rfl
  | _ => cases h

/-- A list is read when each of its elements is. -/
theorem mapM_eq_some_of_forall₂ {α : Type} {read : Json → Option α} {items : List Json}
    {as : List α} (h : List.Forall₂ (fun v a => read v = some a) items as) :
    items.mapM read = some as := by
  induction h with
  | nil => rfl
  | cons hread _ ih =>
    rw [List.mapM_cons, hread, ih]
    rfl

end Json

namespace Chat

open Json (defaulted optional str? listOf? field?_of_isObject isRecord_of_isObject isObject_of_get?
  mapM_eq_some_of_forall₂)

/-! ### Texts -/

/-- A field holds a text, or is left out where the text is empty. -/
def SpellsText (field : Option Json) (s : String) : Prop :=
  field = some (.str s) ∨ field = none ∧ s = ""

/-- A field holds a text if there is one, and else is left out or `null`. -/
def SpellsText? (field : Option Json) : Option String → Prop
  | some s => field = some (.str s)
  | none => field = none ∨ field = some .null

theorem defaulted_of_spellsText {field : Option Json} {s : String} (h : SpellsText field s) :
    defaulted field "" str? = some s := by
  obtain rfl | ⟨rfl, rfl⟩ := h <;> rfl

theorem optional_of_spellsText? {field : Option Json} {s? : Option String}
    (h : SpellsText? field s?) :
    optional field str? = some s? := by
  cases s? with
  | none => obtain rfl | rfl := h <;> rfl
  | some s =>
    obtain rfl := h
    rfl

/-! ### Bodies -/

/-- A value is an object with the fields of an image. -/
structure Image.Spelling (v : Json) (image : Image) : Prop where
  url : v.get? "url" = some (.str image.url)
  detail : SpellsText? (v.get? "detail") image.detail?

theorem Image.ofJson?_of_spelling {v : Json} {image : Image} (h : image.Spelling v) :
    ofJson? v = some image := by
  have hobject : v.isObject = true := isObject_of_get? h.url
  have hdetail := optional_of_spellsText? h.detail
  simp [ofJson?, isRecord_of_isObject hobject, field?_of_isObject hobject, h.url, Json.required,
    str?, hdetail]

/-- A value is an object with the kind of a block and what comes with it. -/
inductive Block.Spelling (v : Json) : Block → Prop where
  | text {t : String} (kind : v.get? "type" = some (.str "text"))
    (text : v.get? "text" = some (.str t)) :
    Spelling v (.text t)
  | image {i : Image} {inner : Json} (kind : v.get? "type" = some (.str "image_url"))
    (image : v.get? "image_url" = some inner) (spelling : i.Spelling inner) : Spelling v (.image i)

theorem Block.ofJson?_of_spelling {v : Json} {block : Block} (h : block.Spelling v) :
    ofJson? v = some block := by
  cases h with
  | text kind text =>
    obtain ⟨rest, htagged, hrecord, hfield⟩ := exists_tagged?_eq (isObject_of_get? kind) kind
    simp [ofJson?, htagged, kind?, hrecord, hfield 0 "text" (by decide), text, Json.required, str?]
  | image kind image spelling =>
    obtain ⟨rest, htagged, hrecord, hfield⟩ := exists_tagged?_eq (isObject_of_get? kind) kind
    simp [ofJson?, htagged, kind?, hrecord, hfield 0 "image_url" (by decide), image, Json.required,
      Image.ofJson?_of_spelling spelling]

/-- A field holds a body.  The empty text may be left out or `null`. -/
def Content.Spelling (field : Option Json) : Content → Prop
  | .plain t => field = some (.str t) ∨ t = "" ∧ (field = none ∨ field = some .null)
  | .blocks bs => ∃ items, field = some (.arr items) ∧ List.Forall₂ Block.Spelling items bs

theorem Content.optional_of_spelling {field : Option Json} {content : Content}
    (h : content.Spelling field) :
    ∃ content?, optional field ofJson? = some content? ∧ content?.getD .empty = content := by
  cases content with
  | plain t =>
    obtain rfl | ⟨rfl, rfl | rfl⟩ := h
    · exact ⟨some (.plain t), rfl, rfl⟩
    · exact ⟨none, rfl, rfl⟩
    · exact ⟨none, rfl, rfl⟩
  | blocks bs =>
    obtain ⟨items, rfl, hitems⟩ := h
    have hread := mapM_eq_some_of_forall₂ (hitems.imp fun _ _ => Block.ofJson?_of_spelling)
    exact ⟨some (.blocks bs), by rw [Json.optional_some rfl, ofJson?, hread]; rfl, rfl⟩

/-! ### Calls -/

/-- A value is an object with the function that is called. -/
structure ToolCall.Spelling (v : Json) (call : ToolCall) : Prop where
  id : SpellsText (v.get? "id") call.id
  kind : v.get? "type" = none ∨ ∃ s, v.get? "type" = some (.str s)
  function : ∃ f, v.get? "function" = some f ∧ f.isObject = true ∧
    SpellsText (f.get? "name") call.name ∧
    SpellsText (f.get? "arguments") call.arguments

theorem ToolCall.ofJson?_of_spelling {v : Json} {call : ToolCall} (h : call.Spelling v) :
    ofJson? v = some call := by
  obtain ⟨f, hfunction, hobject, hname, harguments⟩ := h.function
  have houter : v.isObject = true := isObject_of_get? hfunction
  have hid := defaulted_of_spellsText h.id
  -- the kind is read and then forgotten
  have hkind : ∃ s, defaulted (v.get? "type") "function" str? = some s := by
    obtain hnone | ⟨s, hs⟩ := h.kind
    · exact ⟨"function", by rw [hnone]; rfl⟩
    · exact ⟨s, by rw [hs]; rfl⟩
  obtain ⟨kind, hkind⟩ := hkind
  simp [ofJson?, isRecord_of_isObject houter, field?_of_isObject houter, hid, hkind, hfunction,
    isRecord_of_isObject hobject, field?_of_isObject hobject, defaulted_of_spellsText hname,
    defaulted_of_spellsText harguments]

/-! ### Messages -/

namespace Message

/-- A value is an object with the fields of a message. -/
structure Spelling (v : Json) (m : Message) : Prop where
  role : v.get? "role" = some (.str m.role.name)
  content : m.content.Spelling (v.get? "content")
  calls : v.get? "tool_calls" = none ∧ m.toolCalls = [] ∨
    ∃ items, v.get? "tool_calls" = some (.arr items) ∧
      List.Forall₂ ToolCall.Spelling items m.toolCalls
  answered : SpellsText? (v.get? "tool_call_id") m.toolCallId?

variable {v : Json} {m : Message}

theorem ofJson?_of_spelling (h : m.Spelling v) : ofJson? v = some m := by
  have hobject : v.isObject = true := isObject_of_get? h.role
  obtain ⟨content?, hread, hcontent⟩ := Content.optional_of_spelling h.content
  have hcalls : defaulted (v.get? "tool_calls") [] (listOf? ToolCall.ofJson?) =
      some m.toolCalls := by
    obtain ⟨hnone, hnil⟩ | ⟨items, hsome, hitems⟩ := h.calls
    · rw [hnone, hnil]
      rfl
    · rw [hsome]
      exact mapM_eq_some_of_forall₂ (hitems.imp fun _ _ => ToolCall.ofJson?_of_spelling)
  simp [ofJson?, isRecord_of_isObject hobject, field?_of_isObject hobject, h.role, Json.required,
    Json.bareChoice?_str, Role.ofName?_name, hread, hcontent, hcalls,
    optional_of_spellsText? h.answered]

/-- The text of a message holds the value that the message is written as. -/
theorem parse_print_toJson (m : Message) : Json.parse m.toJson.print = .ok m.toJson :=
  Json.parse_print_of_within (m.within_toJson.mono (by decide))

/-- **Messages in their written form** are read back, also when they have been read from a value
that spells them otherwise. -/
theorem written_read_back :
    (∀ m : Message, Json.parse m.toJson.print = .ok m.toJson ∧ ofJson? m.toJson = some m) ∧
      (∀ (m : Message) (v : Json), m.Spelling v → ofJson? v = some m) ∧
      ∀ (m : Message) (v : Json), ofJson? v = some m →
        Json.parse m.toJson.print = .ok m.toJson ∧ ofJson? m.toJson = some m := by
  have hback (m : Message) : Json.parse m.toJson.print = .ok m.toJson ∧ ofJson? m.toJson = some m :=
    ⟨m.parse_print_toJson, m.ofJson?_toJson⟩
  exact ⟨hback, fun _ _ => ofJson?_of_spelling, fun m _ _ => hback m⟩

/-- A call with a name and nothing else, in a message whose body is `null`. -/
def sparse : Json :=
  .obj [("content", .null), ("note", .bool true), ("role", .str "assistant"),
    ("tool_calls", .arr [.obj [("function", .obj [("name", .str "ls")])]])]

theorem written_read_back_sparse :
    Spelling sparse (withToolCall assistant ⟨"", "ls", ""⟩) ∧
      ofJson? sparse = some (withToolCall assistant ⟨"", "ls", ""⟩) ∧
      ofJson? (withToolCall assistant ⟨"", "ls", ""⟩).toJson =
        some (withToolCall assistant ⟨"", "ls", ""⟩) := by
  have hcall : ToolCall.Spelling (.obj [("function", .obj [("name", .str "ls")])]) ⟨"", "ls", ""⟩ :=
    ⟨.inr ⟨rfl, rfl⟩, .inl rfl, _, rfl, rfl, .inl rfl, .inr ⟨rfl, rfl⟩⟩
  have hspells : Spelling sparse (withToolCall assistant ⟨"", "ls", ""⟩) :=
    ⟨rfl, .inr ⟨rfl, .inr rfl⟩, .inr ⟨_, rfl, .cons hcall .nil⟩, .inl rfl⟩
  have hread := written_read_back.2.1 _ _ hspells
  exact ⟨hspells, hread, (written_read_back.2.2 _ _ hread).2⟩

end Message

end Chat

end Parley
