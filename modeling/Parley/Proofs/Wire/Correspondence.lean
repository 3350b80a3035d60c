import Parley.Proofs.Wire.Dialogue

/-!
# One dialogue in two formats

`same_dialogue`: the Anthropic and the Gemini format, which go through a history in ways of their
own, send one and the same dialogue, turn by turn and entry by entry.  The placeholder of the
Anthropic format can be told from every turn of a dialogue (`Anthropic.turn_ne_placeholder`), so
nothing else is dropped with it.
-/

namespace Parley.Wire

open Chat (Message)

namespace Anthropic

/-- The placeholder holds a text, and a turn of a dialogue a list of blocks. -/
theorem turn_ne_placeholder (t : Turn Entry) : turn t ≠ placeholder := by
  intro h
  have hcontent : (turn t).member "content" = .str "" := by
    rw [h]
    rfl
  rw [(member_turn t).2] at hcontent
  cases hcontent

theorem filter_ne_placeholder (turns : List (Turn Entry)) :
    (turns.map turn).filter (· ≠ placeholder) = turns.map turn := by
  rw [List.filter_eq_self]
  intro v hv
  obtain ⟨t, -, rfl⟩ := List.mem_map.mp hv
  exact decide_eq_true (turn_ne_placeholder t)

/-- Without the placeholder, what the Anthropic format sends is the dialogue. -/
theorem filter_messages (history : List Message) :
    (messages history).2.filter (· ≠ placeholder) = (dialogue history).map turn := by
  rw [messages_eq, List.filter_append, filter_ne_placeholder]
  split
  · rfl
  · have hfront : [placeholder].filter (· ≠ placeholder) = [] := by simp
    rw [hfront, List.nil_append]

end Anthropic

/-- **One dialogue.**  Whatever the history, both formats send the same system text, and turns of
the same sides with the same entries.  The entries are all that the messages behind the leading ones
of the system say, in order, and each result has the name under which its id was called last before
it, or its id for a name when it was not called. -/
theorem same_dialogue (history : List Message) :
    (Anthropic.messages history).1 = (Gemini.messages history).1 ∧
    ∃ turns : List (Turn Entry),
      (Anthropic.messages history).2.filter (· ≠ Anthropic.placeholder) = turns.map Anthropic.turn ∧
      (Gemini.messages history).2 = turns.map Gemini.turn ∧
      turns.flatMap (·.entries) = (said [] (history.dropWhile isSystem)).flatMap (·.entries) ∧
      ∀ (earlier later : List Entry) (id name text : String),
        turns.flatMap (·.entries) = earlier ++ .result id name text :: later →
          name = calledName (calledIn earlier) id := by
  constructor
  · rw [Anthropic.messages_eq, Gemini.messages_eq]
  · refine ⟨dialogue history, Anthropic.filter_messages history, ?_, entries_dialogue history, ?_⟩
    · rw [Gemini.messages_eq]
    · intro earlier later id name text h
      exact calledName_of_mem_dialogue h

end Parley.Wire
