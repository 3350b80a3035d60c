import Mathlib.Data.List.Induction
import Parley.Proofs.Workspace.Limits
import Parley.Workspace.Search

/-!
# Walks and all hits

A walk finds the first of all hits, as many as there is room for (`firstHits_eq`).

What carries the proof is what a walk promises: the hits that it has and all hits in what is on the
stack, cut off where there is no more room (`Walk.promised`).  A step keeps the promise
(`Walk.promised_of_step?`), whether it takes the lines of a file or puts the entries of a directory
in its place, and at the end of a walk the hits that it has are what was promised.  A walk passes
over what lies at a path that is not taken.  There are no hits in it, if the paths of all that is
below are not taken either (`hitsIn_of_not_takes`): so it is where paths must not be too long,
because the paths below are longer still (`Mount.takesParents_whole`).
-/

namespace Parley.Workspace

variable {takes : Location → Bool} {needle path : String} {room : Nat} {l : Location} {t : Tree}
  {hits : List Hit}

/-! ### Paths that are not taken -/

mutual

theorem hitsIn_of_not_takes (htakes : TakesParents takes) {l : Location} (h : takes l = false)
    (t : Tree) : hitsIn takes needle l t = [] := by
  cases t with
  | file contents => rw [hitsIn, hitsInFile, h, Bool.not_false, Bool.true_or, if_pos rfl]
  | dir es => rw [hitsIn, hitsInEntries_of_not_takes htakes h es]

theorem hitsInEntries_of_not_takes (htakes : TakesParents takes) {l : Location}
    (h : takes l = false) (es : List (String × Tree)) : hitsInEntries takes needle l es = [] := by
  cases es with
  | nil => rw [hitsInEntries]
  | cons e es =>
    obtain ⟨name, t⟩ := e
    have hname : takes (l ++ [name]) = false := by
      rw [Bool.eq_false_iff] at h ⊢
      exact mt (htakes l name) h
    rw [hitsInEntries, hitsIn_of_not_takes htakes hname t, hitsInEntries_of_not_takes htakes h es,
      List.append_nil]

end

/-- The hits in a directory are those in its entries, one after the other. -/
theorem hitsInEntries_eq (l : Location) (es : List (String × Tree)) :
    hitsInEntries takes needle l es = (located l es).flatMap fun (l, t) =>
      hitsIn takes needle l t := by
  induction es with
  | nil => rw [hitsInEntries]; rfl
  | cons e es ih => rw [hitsInEntries, located_cons, List.flatMap_cons, ih]

/-! ### Room for hits -/

/-- To cut off first and once more behind what follows is to cut off once. -/
theorem take_take_append (found more : List Hit) :
    (found.take room ++ more).take room = (found ++ more).take room := by
  rw [List.take_append, List.take_append, List.take_take, Nat.min_self, List.length_take]
  congr 2
  omega

namespace Walk

theorem takeLines_eq (hits : List Hit) (lines : List (String × Nat)) (hroom : hits.length ≤ room) :
    takeLines needle path room hits lines = (hits ++ lines.filterMap fun (line, i) =>
      if Text.contains (Text.lower line) needle then some (⟨path, i + 1, Text.trim line⟩ : Hit)
      else none).take room := by
  induction lines generalizing hits with
  | nil => rw [takeLines, List.filterMap_nil, List.append_nil, List.take_of_length_le hroom]
  | cons entry lines ih =>
    obtain ⟨line, i⟩ := entry
    rw [takeLines, List.filterMap_cons]
    by_cases hfull : room ≤ hits.length
    · rw [if_pos hfull, List.take_append_of_le_length hfull, List.take_of_length_le hroom]
    · rw [if_neg hfull]
      dsimp only
      split
      · have hroom : (hits ++ [(⟨path, i + 1, Text.trim line⟩ : Hit)]).length ≤ room := by
          rw [List.length_append, List.length_singleton]
          omega
        rw [ih _ hroom, List.append_assoc, List.singleton_append]
      · exact ih hits hroom

theorem takeFile_eq (contents : ByteArray) (hroom : hits.length ≤ room) (htaken : takes l = true) :
    takeFile needle room l contents hits =
      (hits ++ hitsInFile takes needle l contents).take room := by
  rw [takeFile, hitsInFile, htaken, Bool.not_true, Bool.false_or]
  by_cases hsize : readLimit < contents.size
  · rw [if_pos hsize, if_pos (decide_eq_true hsize), List.append_nil, List.take_of_length_le hroom]
  · rw [if_neg hsize, if_neg (by simpa using hsize)]
    cases String.fromUTF8? contents with
    | some text => exact takeLines_eq hits _ hroom
    | none => dsimp only; rw [List.append_nil, List.take_of_length_le hroom]

/-! ### Steps and runs -/

/-- All hits in what is still to be looked at. -/
def ahead (takes : Location → Bool) (needle : String) (w : Walk) : List Hit :=
  w.pending.flatMap fun (l, t) => hitsIn takes needle l t

/-- What a walk will have found at its end. -/
def promised (takes : Location → Bool) (needle : String) (room : Nat) (w : Walk) : List Hit :=
  (w.hits ++ w.ahead takes needle).take room

/-- **A step keeps the promise** of a walk, and has no more hits than there is room for. -/
theorem promised_of_step? (htakes : TakesParents takes) {w w' : Walk}
    (hroom : w.hits.length ≤ room) (h : w.step? takes needle room = some w') :
    w'.promised takes needle room = w.promised takes needle room ∧ w'.hits.length ≤ room := by
  obtain ⟨_ | ⟨⟨l, t⟩, pending⟩, hits⟩ := w
  · cases h
  · simp only [step?] at h
    simp only [promised, ahead, List.flatMap_cons]
    split at h
    · cases h
    · split at h
      · next htaken =>
        rw [Bool.not_eq_true'] at htaken
        cases h
        exact ⟨by rw [hitsIn_of_not_takes htakes htaken, List.nil_append], hroom⟩
      · next htaken =>
        rw [Bool.not_eq_true', Bool.not_eq_false] at htaken
        cases t with
        | file contents =>
          cases h
          have hfile : takeFile needle room l contents hits = _ :=
            takeFile_eq contents hroom htaken
          dsimp only
          rw [hfile, hitsIn, ← List.append_assoc]
          exact ⟨take_take_append _ _, List.length_take_le _ _⟩
        | dir es =>
          cases h
          dsimp only
          rw [hitsIn, hitsInEntries_eq, List.flatMap_append]
          exact ⟨rfl, hroom⟩

/-- A walk that is over has what it promised. -/
theorem hits_of_step?_eq_none {w : Walk} (hroom : w.hits.length ≤ room)
    (h : w.step? takes needle room = none) :
    w.hits = w.promised takes needle room := by
  obtain ⟨_ | ⟨⟨l, t⟩, pending⟩, hits⟩ := w
  · rw [promised, ahead, List.flatMap_nil, List.append_nil, List.take_of_length_le hroom]
  · simp only [step?] at h
    split at h
    · next hfull => rw [promised, List.take_append_of_le_length hfull, List.take_of_length_le hroom]
    · split at h
      · cases h
      · cases t <;> cases h

/-- **What a walk finds** is what it promised. -/
theorem run_eq_promised (htakes : TakesParents takes) {w : Walk} (hroom : w.hits.length ≤ room) :
    w.run takes needle room = w.promised takes needle room := by
  induction w using run.induct takes needle room with
  | case1 w h =>
    rw [run.eq_1, h]
    exact hits_of_step?_eq_none hroom h
  | case2 w w' h ih =>
    obtain ⟨hpromised, hroom⟩ := promised_of_step? htakes hroom h
    rw [run.eq_1, h]
    exact (ih hroom).trans hpromised

end Walk

/-- **To stop early loses no hit** that there is room for. -/
theorem firstHits_eq (htakes : TakesParents takes) (needle : String) (room : Nat) (l : Location)
    (t : Tree) :
    firstHits takes needle room l t = (hitsIn takes needle l t).take room := by
  rw [firstHits, Walk.run_eq_promised htakes (Nat.zero_le room), Walk.promised, Walk.ahead,
    List.nil_append, List.flatMap_singleton]

end Parley.Workspace
