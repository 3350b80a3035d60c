import Parley.Proofs.Chat.Written
import Parley.Proofs.Json.RoundTrip
import Parley.Proofs.Text.Cuts

/-!
# The text of a stream of events

`lossless_wire`: cut at its blank lines, the text of a stream of events has one frame for each
event; a frame has the kind in its first line and the payload in its second, and from these two the
event is read back.  So different lists of events have different texts.

No text in an event can add a line, since a printed value holds no control character
(`Json.space_le_of_mem_chars`); one frame is cut off at a time (`framesOf_append`).  That payloads
are read back is a hypothesis here.  It holds of every event whose pending calls have arguments that
are nested at most `maxDepth - 3` deep and hold legible numbers (`parse_payload`).
-/

namespace Parley

namespace Chat

open Json (Within Number.Legible maxDepth)

/-! ### How deep messages are nested -/

section Depth

variable {P : Json.Number → Prop} {n : Nat}

theorem within_object {members : List (String × Json)} (h : ∀ e ∈ members, e.2.Within P n) :
    (Json.object members).Within P (n + 1) :=
  .obj (Entries.ascending_ofList members) fun e he => h e (Entries.mem_ofList he)

theorem within_map {α : Type} {write : α → Json} {as : List α}
    (h : ∀ a ∈ as, (write a).Within P n) :
    (Json.arr (as.map write)).Within P (n + 1) := .arr (List.forall_mem_map.mpr h)

theorem within_member? {name : String} {a? : Option String} :
    ∀ e ∈ Json.member? name Json.str a?, e.2.Within P n := by
  cases a? with
  | none => exact List.forall_mem_nil _
  | some s => exact List.forall_mem_cons.mpr ⟨.str n s, List.forall_mem_nil _⟩

theorem Image.within_toJson (image : Image) : image.toJson.Within P 1 :=
  within_object (List.forall_mem_cons.mpr ⟨.str 0 _, within_member?⟩)

theorem Block.within_toJson (block : Block) : block.toJson.Within P 2 := by
  cases block with
  | text t => exact within_object (by simp [Within.str])
  | image i => exact within_object (by simp [Within.str, i.within_toJson])

theorem Content.within_toJson (content : Content) : content.toJson.Within P 3 := by
  cases content with
  | plain t => exact .str 3 t
  | blocks bs => exact within_map fun b _ => b.within_toJson

theorem ToolCall.within_toJson (call : ToolCall) : call.toJson.Within P 2 := by
  have hfunction :
      (Json.object [("name", .str call.name), ("arguments", .str call.arguments)]).Within P 1 :=
    within_object (by simp [Within.str])
  exact within_object (by simp [Within.str, hfunction])

theorem Message.within_toJson (m : Message) : m.toJson.Within P 4 := by
  have hcalls : (Json.arr (m.toolCalls.map ToolCall.toJson)).Within P 3 :=
    within_map fun call _ => call.within_toJson
  refine within_object ?_
  simp only [List.forall_mem_append, List.forall_mem_cons]
  refine ⟨⟨⟨.str 3 _, m.content.within_toJson, List.forall_mem_nil _⟩, ?_⟩, within_member?⟩
  split
  · exact List.forall_mem_nil _
  · exact List.forall_mem_cons.mpr ⟨hcalls, List.forall_mem_nil _⟩

theorem PendingCall.within_toJson {call : PendingCall} (h : call.arguments.Within P n) :
    call.toJson.Within P (n + 1) := within_object (by simp [Within.str, Within.bool, h])

end Depth

namespace Event

/-- The calls that an event shows as waiting. -/
def waiting : Event → List PendingCall
  | .pending calls | .done _ (some calls) => calls
  | _ => []

/-- An event is nested three levels deeper than the arguments of its pending calls, or not deep at
all. -/
theorem within_payload {P : Json.Number → Prop} {e : Event} {n : Nat} (hn : 3 ≤ n)
    (h : ∀ call ∈ e.waiting, call.arguments.Within P n) : e.payload.Within P (n + 3) := by
  -- a message has four levels, none of which depends on its texts
  have hmessage (m : Message) : m.toJson.Within P (n + 2) := m.within_toJson.mono (by omega)
  have hcalls {calls : List PendingCall} (h : ∀ call ∈ calls, call.arguments.Within P n) :
      (Json.arr (calls.map PendingCall.toJson)).Within P (n + 2) :=
    within_map fun call hcall => PendingCall.within_toJson (h call hcall)
  refine within_object ?_
  cases e with
  | assistantStart id => simp [fields, Within.str]
  | assistantDelta id delta => simp [fields, Within.str]
  | assistantEnd id message => simp [fields, Within.str, hmessage]
  | toolStart callId name => simp [fields, Within.str]
  | toolEnd callId name message => simp [fields, Within.str, hmessage]
  | pending calls => simpa [fields, waiting] using hcalls h
  | done messages pending? =>
    have hall : (Json.arr (messages.map Message.toJson)).Within P (n + 2) :=
      within_map fun m _ => m.within_toJson.mono (by omega)
    cases pending? with
    | none => simpa [fields, Json.member?] using hall
    | some calls => simpa [fields, Json.member?] using ⟨hall, hcalls h⟩

/-- A payload is read back when the arguments of its pending calls are not nested too deep and their
numbers are legible. -/
theorem parse_payload {e : Event}
    (h : ∀ call ∈ e.waiting, call.arguments.Within Number.Legible (maxDepth - 3)) :
    Json.parse e.payload.print = .ok e.payload :=
  Json.parse_print_of_within (within_payload (by decide) h)

/-! ### Lines and frames -/

/-- The text of a stream of events. -/
def wire (events : List Event) : String := String.join (events.map encode)

/-- Whether a character ends a line. -/
def isBreak (c : Char) : Bool := c == '\r' || c == '\n'

/-- The lines of a text. -/
def linesOf (text : List Char) : List String := (text.splitOnP isBreak).map String.ofList

/-- The frames of a text: the lines between blank ones. -/
def framesOf (text : String) : List (List String) :=
  ((linesOf text.toList).splitOn "").filter (· ≠ [])

/-- The two lines of an event. -/
def frame (e : Event) : List String := ["event: " ++ e.kind, "data: " ++ e.payload.print]

/-- The event that the lines of a frame stand for. -/
def ofFrame? : List String → Option Event
  | [first, second] => do
    let kind ← Text.after? "event: " first
    let data ← Text.after? "data: " second
    match Json.parse data with
    | .ok v => ofJson? (v.withMember "type" (.str kind))
    | .error _ => none
  | _ => none

theorem isBreak_of_space_le {c : Char} (h : ' ' ≤ c) : isBreak c = false := by
  have hr : ¬ ' ' ≤ '\r' := by decide
  have hn : ¬ ' ' ≤ '\n' := by decide
  rw [isBreak, Bool.or_eq_false_iff, beq_eq_false_iff_ne, beq_eq_false_iff_ne]
  constructor
  · rintro rfl
    exact hr h
  · rintro rfl
    exact hn h

theorem isBreak_of_mem_print {v : Json} : ∀ c ∈ v.print.toList, isBreak c = false := by
  rw [Json.toList_print]
  exact fun c hc => isBreak_of_space_le (v.space_le_of_mem_chars c hc)

theorem isBreak_of_any {cs : List Char} (h : cs.any isBreak = false) :
    ∀ c ∈ cs, isBreak c = false :=
  fun c hc => Bool.eq_false_iff.mpr (List.any_eq_false.mp h c hc)

theorem isBreak_of_mem_frame {e : Event} :
    ∀ line ∈ e.frame, ∀ c ∈ line.toList, isBreak c = false := by
  have hkind : e.kind.toList.any isBreak = false := by cases e <;> simp only [kind] <;> decide
  have hfirst : "event: ".toList.any isBreak = false := by decide
  have hsecond : "data: ".toList.any isBreak = false := by decide
  simp only [frame, List.forall_mem_cons, String.toList_append, List.forall_mem_append]
  exact ⟨⟨isBreak_of_any hfirst, isBreak_of_any hkind⟩,
    ⟨isBreak_of_any hsecond, isBreak_of_mem_print⟩, List.forall_mem_nil _⟩

/-- A line in front of a break is the first line. -/
theorem linesOf_append {line : String} (h : ∀ c ∈ line.toList, isBreak c = false)
    (rest : List Char) :
    linesOf (line.toList ++ '\n' :: rest) = line :: linesOf rest := by
  rw [linesOf, List.splitOnP_append_cons line.toList rest rfl, List.splitOnP_eq_singleton h]
  simp [linesOf]

theorem toList_encode (e : Event) : e.encode.toList =
    ("event: " ++ e.kind).toList ++ '\n' :: (("data: " ++ e.payload.print).toList ++ '\n' ::
      ['\n']) := by
  simp [encode, String.toList_append]

/-- **One frame** is cut off in front of what follows. -/
theorem framesOf_append (e : Event) (rest : String) :
    framesOf (e.encode ++ rest) = e.frame :: framesOf rest := by
  obtain ⟨hkind, hdata, -⟩ : _ ∧ _ ∧ _ := by
    simpa only [frame, List.forall_mem_cons] using isBreak_of_mem_frame (e := e)
  have hlines : linesOf (e.encode ++ rest).toList = e.frame ++ "" :: linesOf rest.toList := by
    rw [String.toList_append, toList_encode, List.append_assoc, List.cons_append,
      linesOf_append hkind, List.append_assoc, List.cons_append, linesOf_append hdata]
    -- the line behind the payload is blank
    have hblank : linesOf ("".toList ++ '\n' :: rest.toList) = "" :: linesOf rest.toList :=
      linesOf_append (fun c hc => by cases hc) rest.toList
    exact congrArg (fun lines => _ :: _ :: lines) hblank
  have hnonempty : "" ∉ e.frame := by
    have hfirst : "" ≠ "event: " ++ e.kind := by simp [String.ext_iff, String.toList_append]
    have hsecond : "" ≠ "data: " ++ e.payload.print := by
      simp [String.ext_iff, String.toList_append]
    simp [frame, hfirst, hsecond]
  have hne : e.frame ≠ [] := List.cons_ne_nil _ _
  rw [framesOf, hlines, List.splitOn_append_cons_self, List.splitOn_eq_singleton hnonempty,
    List.singleton_append, List.filter_cons, if_pos (by simpa using hne), framesOf]

theorem framesOf_wire (events : List Event) : framesOf (wire events) = events.map frame := by
  induction events with
  | nil => rfl
  | cons e events ih =>
    have hwire : wire (e :: events) = e.encode ++ wire events := by
      rw [wire, wire, List.map_cons, String.join_cons]
    rw [hwire, framesOf_append, ih, List.map_cons]

/-! ### Reading frames -/

theorem ofFrame?_frame {e : Event} (h : Json.parse e.payload.print = .ok e.payload) :
    ofFrame? e.frame = some e := by
  rw [frame, ofFrame?, Text.after?_append, Text.after?_append]
  show (match Json.parse e.payload.print with
    | .ok v => ofJson? (v.withMember "type" (.str e.kind))
    | .error _ => none) = some e
  rw [h]
  exact ofJson?_withKind e

theorem mapM_ofFrame? {events : List Event}
    (h : ∀ e ∈ events, Json.parse e.payload.print = .ok e.payload) :
    (framesOf (wire events)).mapM ofFrame? = some events := by
  rw [framesOf_wire]
  induction events with
  | nil => rfl
  | cons e events ih =>
    obtain ⟨he, hrest⟩ := List.forall_mem_cons.mp h
    rw [List.map_cons, List.mapM_cons, ofFrame?_frame he, ih hrest]
    rfl

/-- **No loss on the wire.**  The text of events is cut at its blank lines into one frame for each
of them, of two lines; there is no line break in a payload, which is read back together with the
name of the kind; and other events have another text. -/
theorem lossless_wire {events : List Event}
    (h : ∀ e ∈ events, Json.parse e.payload.print = .ok e.payload) :
    framesOf (wire events) =
      events.map (fun e => ["event: " ++ e.kind, "data: " ++ e.payload.print]) ∧
      (∀ e ∈ events, '\r' ∉ e.payload.print.toList ∧ '\n' ∉ e.payload.print.toList) ∧
      (∀ e ∈ events, ∃ v, Json.parse e.payload.print = .ok v ∧
        ofJson? (v.withMember "type" (.str e.kind)) = some e) ∧
      ∀ others : List Event, (∀ e ∈ others, Json.parse e.payload.print = .ok e.payload) →
        wire others = wire events → others = events := by
  refine ⟨framesOf_wire events, fun e _ => ?_, fun e he => ⟨e.payload, h e he, ofJson?_withKind e⟩,
    ?_⟩
  · constructor
    · exact fun hmem => absurd (isBreak_of_mem_print '\r' hmem) (by decide)
    · exact fun hmem => absurd (isBreak_of_mem_print '\n' hmem) (by decide)
  · intro others hothers hwire
    have hread := mapM_ofFrame? hothers
    rw [hwire, mapM_ofFrame? h] at hread
    exact (Option.some.inj hread).symm

/-- Texts with line breaks, quotes and the words of a frame in them stay in their own frame. -/
theorem lossless_wire_of_breaks :
    let events : List Event :=
      [.assistantDelta "a1" "one\r\n\ndata: \"two\"\nevent: done",
        .pending [⟨"c1", "read", .obj [], true⟩]]
    (∀ e ∈ events, Json.parse e.payload.print = .ok e.payload) ∧
      framesOf (wire events) =
        events.map (fun e => ["event: " ++ e.kind, "data: " ++ e.payload.print]) := by
  intro events
  have hread : ∀ e ∈ events, Json.parse e.payload.print = .ok e.payload := by
    refine List.forall_mem_cons.mpr ⟨parse_payload (List.forall_mem_nil _), ?_⟩
    refine List.forall_mem_cons.mpr ⟨parse_payload ?_, List.forall_mem_nil _⟩
    exact List.forall_mem_cons.mpr ⟨.obj List.Pairwise.nil (List.forall_mem_nil _),
      List.forall_mem_nil _⟩
  exact ⟨hread, (lossless_wire hread).1⟩

end Event

end Chat

end Parley
