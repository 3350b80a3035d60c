import Parley.Proofs.Wire.Ending
import Parley.Provider.Model

/-!
# Pieces of text and the whole

`AddsUp`: the pieces of text of a stream, none of which is empty, make up the text of the message
behind them.

What an assembly has to do with a single line for that is `Assembly.Grows`: the text that has come
grows by the piece that is shown.  Three formats append pieces to one text, or have the text at once
(`OpenAi.addsUp`, `Ollama.addsUp`, `addsUp_wholeStream`).  In the Anthropic format the text is that
of blocks in the order of their indices, which is the order in which the pieces came only when those
are `Orderly` (`Anthropic.addsUp`).
-/

namespace Parley.Wire

/-- Whether items go on from a text that has been shown: they are pieces of text, none of which is
empty, and then the message whose text it makes up with them, or a failure. -/
inductive AddsTo (shown : String) : List (Except Failure Chunk) → Prop where
  | done {deltas : List String} {c : Completion} (nonempty : "" ∉ deltas)
    (text : shown ++ String.join deltas = c.message.text) :
    AddsTo shown (deltaItems deltas ++ [.ok (.done c)])
  | failed {deltas : List String} (nonempty : "" ∉ deltas) (e : Failure) :
    AddsTo shown (deltaItems deltas ++ [.error e])

/-- Whether the pieces of text of a stream make up the text of its message. -/
def AddsUp (items : List (Except Failure Chunk)) : Prop := AddsTo "" items

theorem AddsUp.done {deltas : List String} {c : Completion} (hnonempty : "" ∉ deltas)
    (htext : String.join deltas = c.message.text) : AddsUp (deltaItems deltas ++ [.ok (.done c)]) :=
  AddsTo.done hnonempty ((String.empty_append ..).trans htext)

/-- A text that is known at once is its only piece. -/
theorem addsUp_wholeStream (c : Completion) : AddsUp (Provider.Model.wholeStream c) := by
  unfold Provider.Model.wholeStream
  split
  · rename_i hempty
    have htext : String.join [] = c.message.text := (String.isEmpty_iff.mp hempty).symm
    exact .done List.not_mem_nil htext
  · rename_i hne
    have hnonempty : "" ∉ [c.message.text] := by
      intro hmem
      exact hne (String.isEmpty_iff.mpr (List.mem_singleton.mp hmem).symm)
    have htext : String.join [c.message.text] = c.message.text := by simp
    exact .done hnonempty htext

/-! ### Line by line -/

/-- Whether a text grows by what is shown of it, which is not empty. -/
structure Extends (text : String) (delta? : Option String) (text' : String) : Prop where
  nonempty : delta? ≠ some ""
  text : text' = text ++ delta?.getD ""

theorem Extends.refl (text : String) : Extends text none text :=
  ⟨nofun, (String.append_empty ..).symm⟩

/-- A piece is shown unless it is empty. -/
theorem Extends.append (text piece : String) :
    Extends text (if piece.isEmpty then none else some piece) (text ++ piece) := by
  split
  · rename_i hpiece
    rw [String.isEmpty_iff.mp hpiece, String.append_empty]
    exact .refl text
  · rename_i hpiece
    refine ⟨?_, rfl⟩
    intro h
    exact hpiece (String.isEmpty_iff.mpr (Option.some.inj h))

/-- The formats take a piece only when it is not empty. -/
theorem Extends.of_filter {piece? : Option String} {piece : String} (text : String)
    (h : piece?.filter (!·.isEmpty) = some piece) : Extends text (some piece) (text ++ piece) := by
  obtain ⟨-, hnonempty⟩ := Option.filter_eq_some_iff.mp h
  refine ⟨?_, rfl⟩
  rintro ⟨rfl⟩
  simp at hnonempty

/-- A piece that is shown comes before the others. -/
theorem Extends.addsTo {text text' : String} {delta? : Option String}
    {items : List (Except Failure Chunk)} (h : Extends text delta? text')
    (hitems : AddsTo text' items) :
    AddsTo text (deltaItems delta?.toList ++ items) := by
  have hnonempty {deltas : List String} (hdeltas : "" ∉ deltas) : "" ∉ delta?.toList ++ deltas := by
    rw [List.mem_append, Option.mem_toList]
    rintro (hmem | hmem)
    · exact h.nonempty hmem
    · exact hdeltas hmem
  cases hitems with
  | @done deltas c hdeltas htext =>
    have hjoin : text ++ String.join (delta?.toList ++ deltas) = c.message.text := by
      rw [← htext, h.text, String.join_append, String.append_assoc]
      cases delta? <;> simp
    rw [← List.append_assoc, ← deltaItems_append]
    exact .done (hnonempty hdeltas) hjoin
  | failed hdeltas e =>
    rw [← List.append_assoc, ← deltaItems_append]
    exact .failed (hnonempty hdeltas) e

namespace Assembly

variable {σ : Type} {a : Assembly σ} {text : σ → String}
  {Ready : σ → List (Except Failure String) → Prop}

/-- Whether the text that an assembly has put together grows by what it shows, as long as it is
ready for the lines that are still to come. -/
structure Grows (a : Assembly σ) (text : σ → String)
    (Ready : σ → List (Except Failure String) → Prop) :
    Prop where
  /-- The text grows, and the assembly is ready for what follows. -/
  feed : ∀ {s line rest delta? s'}, Ready s (.ok line :: rest) → a.feed s line = .ok (delta?, s') →
    Extends (text s) delta? (text s') ∧ (a.isDone s' = false → Ready s' rest)
  /-- The text is that of the message. -/
  finish : ∀ {s c}, a.finish s = .ok c → c.message.text = text s

theorem Grows.addsTo_finish (h : a.Grows text Ready) (s : σ) :
    AddsTo (text s) [(a.finish s).map .done] := by
  cases hfinish : a.finish s with
  | error e => exact .failed List.not_mem_nil e
  | ok c =>
    have htext : text s ++ String.join [] = c.message.text := by
      rw [h.finish hfinish]
      exact String.append_empty ..
    exact .done List.not_mem_nil htext

/-- What is shown from a state on adds to its text. -/
theorem Grows.addsTo_chunksFrom (h : a.Grows text Ready) {s : σ}
    {lines : List (Except Failure String)} (hready : Ready s lines) :
    AddsTo (text s) (a.chunksFrom s lines) := by
  induction lines generalizing s with
  | nil => exact h.addsTo_finish s
  | cons line lines ih =>
    rcases line with e | line
    · exact .failed List.not_mem_nil e
    · rcases hfeed : a.feed s line with e | ⟨delta?, s'⟩
      · rw [chunksFrom_cons_of_error hfeed]
        exact .failed List.not_mem_nil e
      · obtain ⟨hextends, hnext⟩ := h.feed hready hfeed
        rw [chunksFrom_cons hfeed]
        apply hextends.addsTo
        cases hdone : a.isDone s' with
        | true => exact h.addsTo_finish s'
        | false => exact ih (hnext hdone)

theorem Grows.addsUp (h : a.Grows text Ready) (hstart : text a.start = "")
    {lines : List (Except Failure String)} (hready : Ready a.start lines) :
    AddsUp (a.chunksFrom a.start lines) := by
  have hadds := h.addsTo_chunksFrom hready
  rwa [hstart] at hadds

end Assembly

/-! ### The OpenAI format -/

namespace OpenAi

theorem extends_takeDelta {p : Partial} {text : String} (h : p.text = text) (delta : Json) :
    Extends text (p.takeDelta delta).1 (p.takeDelta delta).2.text := by
  subst h
  unfold Partial.takeDelta
  dsimp only
  split
  · rename_i piece hpiece
    exact .of_filter _ hpiece
  · exact .refl p.text

theorem extends_takeChunk (p : Partial) (chunk : Json) :
    Extends p.text (p.takeChunk chunk).1 (p.takeChunk chunk).2.text := by
  unfold Partial.takeChunk
  dsimp only
  -- neither the token counts nor the reason to stop change the text
  cases (((chunk.member "choices").nth 0).member "finish_reason").str? <;>
    cases (chunk.member "usage").isObject
  all_goals
    refine extends_takeDelta ?_ _
    rfl

theorem grows : assembly.Grows Partial.text fun _ _ => True where
  feed := by
    intro s line rest delta? s' _ hfeed
    rw [assembly_feed] at hfeed
    refine ⟨?_, fun _ => trivial⟩
    rcases Partial.feed_eq_ok hfeed with ⟨-, rfl, rfl⟩ | ⟨-, rfl, rfl⟩ | ⟨data, chunk, -,
      -, -, htake⟩
    · exact .refl _
    · exact .refl _
    · have hextends := extends_takeChunk s chunk
      rwa [htake] at hextends
  finish := by
    intro s c (hfinish : s.finish = .ok c)
    unfold Partial.finish at hfinish
    split_ifs at hfinish
    cases hfinish
    rfl

theorem addsUp (lines : List (Except Failure String)) :
    AddsUp (assembly.chunksFrom assembly.start lines) := grows.addsUp rfl trivial

end OpenAi

/-! ### The Ollama format -/

namespace Ollama

theorem extends_takeMessage (p : Partial) (message : Json) :
    Extends p.text (p.takeMessage message).1 (p.takeMessage message).2.text := by
  unfold Partial.takeMessage
  dsimp only
  split
  · rename_i piece hpiece
    exact .of_filter _ hpiece
  · exact .refl p.text

theorem extends_takeChunk (p : Partial) (chunk : Json) :
    Extends p.text (p.takeChunk chunk).1 (p.takeChunk chunk).2.text := by
  unfold Partial.takeChunk
  cases (chunk.get? "message").filter Json.isObject with
  | none => cases (chunk.member "done").bool?.getD false <;> exact .refl p.text
  | some message =>
    cases (chunk.member "done").bool?.getD false <;> exact extends_takeMessage p message

theorem grows : assembly.Grows Partial.text fun _ _ => True where
  feed := by
    intro s line rest delta? s' _ hfeed
    rw [assembly_feed] at hfeed
    refine ⟨?_, fun _ => trivial⟩
    rcases Partial.feed_eq_ok hfeed with ⟨-, rfl, rfl⟩ | ⟨chunk, -, htake⟩
    · exact .refl _
    · have hextends := extends_takeChunk s chunk
      rwa [htake] at hextends
  finish := by
    intro s c (hfinish : s.finish = .ok c)
    unfold Partial.finish at hfinish
    split_ifs at hfinish
    split at hfinish
    · cases hfinish
    · cases hfinish
      rfl

theorem addsUp (lines : List (Except Failure String)) :
    AddsUp (assembly.chunksFrom assembly.start lines) := grows.addsUp rfl trivial

end Ollama
end Parley.Wire
