import Mathlib.Data.Option.Basic
import Parley.Chat.Event
import Parley.Proofs.Json.Members

/-!
# What is written is read back

Images, blocks, bodies, tool calls, messages and pending calls are read back from the values that
they are written as, and an event is read back from its payload when the name of its kind is put
into it as `type` (`Event.ofJson?_withKind`).

Members of an object are found by their names (`Json.field?_object`), so it does not matter which of
the optional ones are there.  For a value with a tag, `exists_tagged?_eq` says what is left of it
without the tag.
-/

namespace Parley

namespace Json

variable {α β : Type}

theorem bareChoice?_str (s : String) : (Json.str s).bareChoice? = some s := rfl

theorem optional_some {v : Json} {read : Json → Option α} (hv : v.isNull = false) :
    Json.optional (some v) read = (read v).map some := by
  cases v with
  | null => cases hv
  | _ => rfl

/-- A list is read back when its elements are. -/
theorem mapM_map_eq_some {read : β → Option α} {write : α → β} (h : ∀ a, read (write a) = some a)
    (as : List α) : (as.map write).mapM read = some as := by
  induction as with
  | nil => rfl
  | cons a as ih =>
    rw [List.map_cons, List.mapM_cons, h, ih]
    rfl

theorem listOf?_map {read : Json → Option α} {write : α → Json} (h : ∀ a, read (write a) = some a)
    (as : List α) : listOf? read (.arr (as.map write)) = some as := mapM_map_eq_some h as

end Json

namespace Chat

open Json (field?_object isRecord_object get?_object required defaulted member? listOf? str?
  lookup_member? lookup_member?_of_ne optional_some)

/-! ### Bodies -/

theorem Image.ofJson?_toJson (image : Image) : Image.ofJson? image.toJson = some image := by
  have hurl : image.toJson.field? 0 "url" = some (.str image.url) := by
    rw [toJson, field?_object, List.reverse_cons, lookup_member?_of_ne (by decide)]
    rfl
  have hdetail : image.toJson.field? 1 "detail" = image.detail?.map .str := by
    rw [toJson, field?_object, List.reverse_cons, lookup_member?]
    exact Option.or_none
  obtain ⟨url, detail?⟩ := image
  rw [ofJson?, hurl, hdetail]
  cases detail? <;> rfl

/-- What is left of an object without its tag has the other members. -/
theorem exists_tagged?_eq {v tag : Json} (hv : v.isObject = true) (h : v.get? "type" = some tag) :
    ∃ rest, tagged? v = some (tag, rest) ∧ (∀ n, rest.isRecord n = true) ∧
      ∀ place k, k ≠ "type" → rest.field? place k = v.get? k := by
  cases v with
  | obj members =>
    refine ⟨.obj (Entries.erase "type" members), ?_, fun _ => rfl, fun place k hk => ?_⟩
    · have hlookup : members.lookup "type" = some tag := h
      rw [tagged?, hlookup]
      rfl
    · exact (Entries.lookup_erase "type" k members).trans (if_neg hk)
  | _ => cases hv

theorem Block.ofJson?_toJson (block : Block) : Block.ofJson? block.toJson = some block := by
  cases block with
  | text t =>
    have htype : (text t).toJson.get? "type" = some (.str "text") := by
      rw [toJson, get?_object]; rfl
    have htext : (text t).toJson.get? "text" = some (.str t) := by rw [toJson, get?_object]; rfl
    obtain ⟨rest, htagged, hrecord, hfield⟩ := exists_tagged?_eq rfl htype
    simp [ofJson?, htagged, kind?, hrecord, hfield 0 "text" (by decide), htext, required, str?]
  | image i =>
    have htype : (image i).toJson.get? "type" = some (.str "image_url") := by
      rw [toJson, get?_object]; rfl
    have himage : (image i).toJson.get? "image_url" = some i.toJson := by
      rw [toJson, get?_object]; rfl
    obtain ⟨rest, htagged, hrecord, hfield⟩ := exists_tagged?_eq rfl htype
    simp [ofJson?, htagged, kind?, hrecord, hfield 0 "image_url" (by decide), himage, required,
      Image.ofJson?_toJson]

theorem Content.ofJson?_toJson (content : Content) :
    Content.ofJson? content.toJson = some content := by
  cases content with
  | plain t => rfl
  | blocks bs =>
    rw [toJson, ofJson?, Json.mapM_map_eq_some Block.ofJson?_toJson]
    rfl

theorem Content.isNull_toJson (content : Content) : content.toJson.isNull = false := by
  cases content <;> rfl

/-! ### Calls and messages -/

theorem ToolCall.ofJson?_toJson (call : ToolCall) : ToolCall.ofJson? call.toJson = some call := by
  simp [ofJson?, toJson, isRecord_object, field?_object, Entries.lookup_cons, defaulted, str?]

theorem PendingCall.ofJson?_toJson (call : PendingCall) :
    PendingCall.ofJson? call.toJson = some call := by
  simp [ofJson?, toJson, isRecord_object, field?_object, Entries.lookup_cons, required,
    str?, Json.bool?]

theorem Message.ofJson?_toJson (m : Message) : Message.ofJson? m.toJson = some m := by
  -- the calls are left out when there are none, which is how an absent list is read
  have hsplit : m.toJson = .object ([("role", .str m.role.name), ("content", m.content.toJson)] ++
      member? "tool_calls" (fun calls => .arr (calls.map ToolCall.toJson))
        (if m.toolCalls.isEmpty then none else some m.toolCalls) ++
      member? "tool_call_id" .str m.toolCallId?) := by
    rw [toJson]
    split <;> rfl
  have hrole : m.toJson.field? 0 "role" = some (.str m.role.name) := by
    rw [hsplit, field?_object, List.reverse_append, lookup_member?_of_ne (by decide),
      List.reverse_append, lookup_member?_of_ne (by decide)]
    rfl
  have hcontent : m.toJson.field? 1 "content" = some m.content.toJson := by
    rw [hsplit, field?_object, List.reverse_append, lookup_member?_of_ne (by decide),
      List.reverse_append, lookup_member?_of_ne (by decide)]
    rfl
  have hcalls : defaulted (m.toJson.field? 2 "tool_calls") [] (listOf? ToolCall.ofJson?) =
      some m.toolCalls := by
    rw [hsplit, field?_object, List.reverse_append, lookup_member?_of_ne (by decide),
      List.reverse_append, lookup_member?]
    split
    · next hempty => rw [List.isEmpty_iff.mp hempty]; rfl
    · exact Json.listOf?_map ToolCall.ofJson?_toJson m.toolCalls
  have hid : Json.optional (m.toJson.field? 3 "tool_call_id") str? = some m.toolCallId? := by
    rw [hsplit, field?_object, List.reverse_append, lookup_member?]
    cases m.toolCallId? with
    | none =>
      rw [Option.map_none, Option.none_or, List.reverse_append, lookup_member?_of_ne (by decide)]
      rfl
    | some id => rfl
  have hbody : Json.optional (m.toJson.field? 1 "content") Content.ofJson? =
      some (some m.content) := by
    rw [hcontent, optional_some m.content.isNull_toJson, Content.ofJson?_toJson]
    rfl
  have hbare : required (m.toJson.field? 0 "role") Json.bareChoice? = some m.role.name := by
    rw [hrole]
    rfl
  have hrecord : m.toJson.isRecord 4 = true := rfl
  simp [ofJson?, hrecord, hbare, hbody, hcalls, hid, Role.ofName?_name]

/-! ### Events -/

namespace Event

/-- A member of a payload, when the kind is put into it. -/
theorem get?_withKind (e : Event) {k : String} (hk : k ≠ "type") :
    (e.payload.withMember "type" (.str e.kind)).get? k = e.fields.reverse.lookup k := by
  rw [Json.get?_withMember rfl, if_neg hk, payload, get?_object]

/-- **An event** is read back from its payload and the name of its kind. -/
theorem ofJson?_withKind (e : Event) :
    ofJson? (e.payload.withMember "type" (.str e.kind)) = some e := by
  have hobject : (e.payload.withMember "type" (.str e.kind)).isObject = true := rfl
  have htype : (e.payload.withMember "type" (.str e.kind)).get? "type" = some (.str e.kind) := by
    rw [Json.get?_withMember rfl, if_pos rfl]
  obtain ⟨rest, htagged, hrecord, hget⟩ := exists_tagged?_eq hobject htype
  have hfield (place : Nat) (k : String) (hk : k ≠ "type") :
      rest.field? place k = e.fields.reverse.lookup k :=
    (hget place k hk).trans (e.get?_withKind hk)
  have hpending (calls : List PendingCall) :
      listOf? PendingCall.ofJson? (.arr (calls.map PendingCall.toJson))
      = some calls := Json.listOf?_map PendingCall.ofJson?_toJson calls
  have hmessages (messages : List Message) :
      listOf? Message.ofJson? (.arr (messages.map Message.toJson))
      = some messages := Json.listOf?_map Message.ofJson?_toJson messages
  -- only the members that come with the kind are looked at
  rw [ofJson?, htagged]
  cases e with
  | assistantStart id =>
    simp [kind, Json.bareChoice?_str, hrecord, hfield, fields, Entries.lookup_cons, required, str?]
  | assistantDelta id delta =>
    simp [kind, Json.bareChoice?_str, hrecord, hfield, fields, Entries.lookup_cons, required, str?]
  | assistantEnd id message =>
    simp [kind, Json.bareChoice?_str, hrecord, hfield, fields, Entries.lookup_cons, required, str?,
      Message.ofJson?_toJson]
  | toolStart callId name =>
    simp [kind, Json.bareChoice?_str, hrecord, hfield, fields, Entries.lookup_cons, required, str?]
  | toolEnd callId name message =>
    simp [kind, Json.bareChoice?_str, hrecord, hfield, fields, Entries.lookup_cons, required, str?,
      Message.ofJson?_toJson]
  | pending calls =>
    simp [kind, Json.bareChoice?_str, hrecord, hfield, fields, required, hpending]
  | done messages pending? =>
    have hall : required (rest.field? 0 "messages") (listOf? Message.ofJson?) = some messages := by
      rw [hfield 0 "messages" (by decide), fields, List.reverse_cons,
        lookup_member?_of_ne (by decide)]
      exact hmessages messages
    have hwaiting : Json.optional (rest.field? 1 "pending_tool_calls") (listOf? PendingCall.ofJson?)
        = some pending? := by
      rw [hfield 1 "pending_tool_calls" (by decide), fields, List.reverse_cons, lookup_member?]
      cases pending? with
      | none => rfl
      | some calls => exact congrArg (Option.map some) (hpending calls)
    simp [kind, Json.bareChoice?_str, hrecord, hall, hwaiting]

end Event

end Chat

end Parley
