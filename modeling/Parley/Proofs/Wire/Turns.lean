import Mathlib.Data.List.Chain
import Parley.Wire.Dialogue

/-!
# Merging into turns

`push` adds what one message says to the turns so far, and a history is brought into turns by
pushing what its messages say, one after the other.  `pushed_push` says all that `push` can do.
From it:

* `entries_pushAll`: nothing is lost, doubled or moved;
* `merged_pushAll`: no turn is empty, and the sides alternate;
* `pushAll_map`: entries may be put into another form before or after.

The turns are listed from the latest on, as `push` takes them.
-/

namespace Parley.Wire

variable {α β : Type} {ts ts' : List (Turn α)} {t : Turn α}

/-- A turn with its entries in another form. -/
def Turn.map (f : α → β) (t : Turn α) : Turn β := ⟨t.side, t.entries.map f⟩

/-- What is said in turns that are listed from the latest on, in the order in which it is said. -/
def entriesOf (ts : List (Turn α)) : List α := ts.reverse.flatMap (·.entries)

theorem entriesOf_cons (t : Turn α) (ts : List (Turn α)) :
    entriesOf (t :: ts) = entriesOf ts ++ t.entries := by
  simp [entriesOf]

/-! ### One message -/

/-- All that can come of adding what a message says. -/
inductive Pushed (t : Turn α) : List (Turn α) → List (Turn α) → Prop where
  /-- The message says nothing. -/
  | silent {ts : List (Turn α)} (h : t.entries = []) : Pushed t ts ts
  /-- The latest turn goes on. -/
  | longer {es : List α} {earlier : List (Turn α)} (h : t.entries ≠ []) :
    Pushed t (⟨t.side, es⟩ :: earlier) (⟨t.side, es ++ t.entries⟩ :: earlier)
  /-- The other side had spoken last, or nobody. -/
  | fresh {ts : List (Turn α)} (h : t.entries ≠ [])
    (other : ∀ last ∈ ts.head?, last.side ≠ t.side) :
    Pushed t ts (t :: ts)

theorem pushed_push (ts : List (Turn α)) (t : Turn α) : Pushed t ts (push ts t) := by
  by_cases h : t.entries = []
  · have hpush : push ts t = ts := by cases ts <;> simp [push, h]
    rw [hpush]
    exact .silent h
  · cases ts with
    | nil =>
      have hpush : push [] t = [t] := by simp [push, h]
      rw [hpush]
      exact .fresh h (by simp)
    | cons last earlier =>
      by_cases hside : last.side = t.side
      · have hpush : push (last :: earlier) t = ⟨t.side, last.entries ++ t.entries⟩ :: earlier := by
          simp [push, h, hside]
        have hlast : last = ⟨t.side, last.entries⟩ := by rw [← hside]
        rw [hpush, hlast]
        exact .longer h
      · have hpush : push (last :: earlier) t = t :: last :: earlier := by simp [push, h, hside]
        rw [hpush]
        exact .fresh h (by simpa using hside)

theorem Pushed.entriesOf_eq (h : Pushed t ts ts') : entriesOf ts' = entriesOf ts ++ t.entries := by
  cases h with
  | silent h => rw [h, List.append_nil]
  | longer => simp only [entriesOf_cons, List.append_assoc]
  | fresh => rw [entriesOf_cons]

/-- Whether no turn is empty and the sides alternate. -/
structure Merged (ts : List (Turn α)) : Prop where
  /-- Something is said in each turn. -/
  entries_ne_nil : ∀ t ∈ ts, t.entries ≠ []
  /-- Neighbouring turns are of different sides. -/
  isChain : ts.IsChain fun a b => a.side ≠ b.side

theorem merged_nil : Merged ([] : List (Turn α)) := ⟨List.forall_mem_nil _, .nil⟩

theorem Merged.pushed (hts : Merged ts) (h : Pushed t ts ts') : Merged ts' := by
  cases h with
  | silent => exact hts
  | @longer es earlier h =>
    obtain ⟨hentries, hchain⟩ := hts
    -- the side of the latest turn stays, so its neighbour is still of the other one
    rw [List.isChain_cons] at hchain
    refine ⟨List.forall_mem_cons.mpr ⟨?_, (List.forall_mem_cons.mp hentries).2⟩,
      List.isChain_cons.mpr hchain⟩
    exact List.append_ne_nil_of_right_ne_nil es h
  | fresh h other =>
    refine ⟨List.forall_mem_cons.mpr ⟨h, hts.entries_ne_nil⟩,
      List.isChain_cons.mpr ⟨?_, hts.isChain⟩⟩
    intro last hlast
    exact (other last hlast).symm

theorem push_map (f : α → β) (ts : List (Turn α)) (t : Turn α) :
    push (ts.map (Turn.map f)) (t.map f) = (push ts t).map (Turn.map f) := by
  cases ts with
  | nil => by_cases h : t.entries = [] <;> simp [push, Turn.map, h]
  | cons last earlier =>
    by_cases h : t.entries = []
    · simp [push, Turn.map, h]
    · by_cases hside : last.side = t.side <;> simp [push, Turn.map, h, hside]

/-! ### One message after the other -/

/-- The turns that come of what messages say, one after the other. -/
def pushAll (ts : List (Turn α)) (said : List (Turn α)) : List (Turn α) := said.foldl push ts

theorem entriesOf_pushAll (ts said : List (Turn α)) :
    entriesOf (pushAll ts said) = entriesOf ts ++ said.flatMap (·.entries) := by
  induction said generalizing ts with
  | nil => simp [pushAll]
  | cons t said ih =>
    show entriesOf (pushAll (push ts t) said) = _
    rw [ih, (pushed_push ts t).entriesOf_eq, List.flatMap_cons, List.append_assoc]

/-- **No loss.**  Turns hold what the messages say, in order. -/
theorem entries_pushAll (said : List (Turn α)) :
    (pushAll [] said).reverse.flatMap (·.entries) = said.flatMap (·.entries) :=
  entriesOf_pushAll [] said

theorem Merged.pushAll (h : Merged ts) (said : List (Turn α)) : Merged (Wire.pushAll ts said) := by
  induction said generalizing ts with
  | nil => exact h
  | cons t said ih => exact ih (h.pushed (pushed_push ts t))

/-- **Alternation.**  Turns are not empty, and their sides alternate. -/
theorem merged_pushAll (said : List (Turn α)) : Merged (pushAll [] said).reverse := by
  obtain ⟨hentries, hchain⟩ := merged_nil.pushAll said
  refine ⟨fun t ht => hentries t (List.mem_reverse.mp ht), List.isChain_reverse.mpr ?_⟩
  exact hchain.imp fun _ _ hne => hne.symm

theorem pushAll_longer (side : Side) (said es : List α) (earlier : List (Turn α)) :
    pushAll (⟨side, said⟩ :: earlier) (es.map fun e => ⟨side, [e]⟩) =
      ⟨side, said ++ es⟩ :: earlier := by
  induction es generalizing said with
  | nil => rw [List.append_nil]; rfl
  | cons e es ih =>
    have hpush : push (⟨side, said⟩ :: earlier) ⟨side, [e]⟩ = ⟨side, said ++ [e]⟩ :: earlier := by
      simp [push]
    show pushAll (push (⟨side, said⟩ :: earlier) ⟨side, [e]⟩) (es.map fun e => ⟨side, [e]⟩) = _
    rw [hpush, ih, List.append_assoc]
    rfl

/-- What comes entry by entry from the side that did not speak last makes up one turn. -/
theorem pushAll_fresh {side : Side} {e : α} {es : List α}
    (h : ∀ last ∈ ts.head?, last.side ≠ side) :
    pushAll ts ((e :: es).map fun e => ⟨side, [e]⟩) = ⟨side, e :: es⟩ :: ts := by
  have hpush : push ts ⟨side, [e]⟩ = ⟨side, [e]⟩ :: ts := by
    cases ts with
    | nil => rfl
    | cons last earlier => simp [push, h last rfl]
  show pushAll (push ts ⟨side, [e]⟩) (es.map fun e => ⟨side, [e]⟩) = _
  rw [hpush]
  exact pushAll_longer side [e] es ts

theorem pushAll_map (f : α → β) (ts said : List (Turn α)) :
    pushAll (ts.map (Turn.map f)) (said.map (Turn.map f)) = (pushAll ts said).map (Turn.map f) := by
  induction said generalizing ts with
  | nil => rfl
  | cons t said ih =>
    show pushAll (push (ts.map (Turn.map f)) (t.map f)) (said.map (Turn.map f)) = _
    rw [push_map, ih]
    rfl

end Parley.Wire
