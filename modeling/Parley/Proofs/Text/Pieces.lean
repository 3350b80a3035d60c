import Mathlib.Data.List.Induction
import Mathlib.Data.List.TakeWhile
import Parley.Text.Blank
import Parley.Text.Pieces

/-!
# What is left of a text that is cut

The pieces of a splitter are those of the library's `List.splitOnP`.  While elements come in, the
pieces that have ended, followed by what is under way with all elements to come, are the pieces of
the whole (`Splitter.closed_append_underWay`).  At the end of a text nothing is cut off before the
last character that stays (`dropEndWhile_append_cons`), so that only a text of blanks is trimmed to
nothing (`trim_eq_empty_iff`).  A text contains those that are infixes of it (`contains_iff`).
-/

namespace Parley.Text

/-! ### The pieces between end marks -/

namespace Splitter

variable {α : Type} (isEnd : α → Bool)

/-- The pieces that have ended and the one under way are those of all elements that came. -/
theorem closed_append_underWay (s : Splitter α) (xs : List α) :
    (s.feed isEnd xs).closed ++ [(s.feed isEnd xs).underWay]
      = s.closed ++ List.splitOnPPrepend isEnd xs s.underWayBack := by
  induction xs generalizing s with
  | nil => rfl
  | cons x xs ih =>
    have hfeed : s.feed isEnd (x :: xs) = (s.push isEnd x).feed isEnd xs := rfl
    rw [hfeed, ih]
    cases hx : isEnd x with
    | true => simp [push, hx, closed, List.splitOnPPrepend_cons_pos hx]
    | false => simp [push, hx, closed, List.splitOnPPrepend_cons_neg hx]

/-- From the beginning, they are the pieces between the end marks. -/
theorem closed_append_underWay_start (xs : List α) :
    (feed isEnd {} xs).closed ++ [(feed isEnd {} xs).underWay] = xs.splitOnP isEnd :=
  closed_append_underWay isEnd {} xs

theorem closed_eq_dropLast (xs : List α) :
    (feed isEnd {} xs).closed = (xs.splitOnP isEnd).dropLast := by
  rw [← closed_append_underWay_start, List.dropLast_concat]

theorem underWay_eq_getLast (xs : List α) :
    (feed isEnd {} xs).underWay = (xs.splitOnP isEnd).getLast (List.splitOnP_ne_nil isEnd xs) := by
  simp only [← closed_append_underWay_start, List.getLast_concat]

end Splitter

/-- The mark at which a list is cut stands in none of its pieces. -/
theorem not_mem_of_mem_splitOn {mark : Char} {cs piece : List Char} (h : piece ∈ cs.splitOn mark) :
    mark ∉ piece := by
  induction cs generalizing piece with
  | nil =>
    rw [List.splitOn_nil, List.mem_singleton] at h
    rw [h]
    exact List.not_mem_nil
  | cons c cs ih =>
    rw [List.splitOn_cons_eq_if_modifyHead] at h
    split at h
    · obtain rfl | h := List.mem_cons.mp h
      · exact List.not_mem_nil
      · exact ih h
    · next hc =>
      cases hpieces : cs.splitOn mark with
      | nil => exact absurd hpieces (List.splitOn_ne_nil mark cs)
      | cons first rest =>
        rw [hpieces, List.modifyHead_cons] at h
        rw [hpieces] at ih
        obtain rfl | h := List.mem_cons.mp h
        · exact List.not_mem_cons_of_ne_of_not_mem (fun hmark => hc (by simp [hmark]))
            (ih List.mem_cons_self)
        · exact ih (List.mem_cons_of_mem first h)

/-- A text is cut at a character where the library cuts the list of its characters. -/
theorem splitOn_eq (mark : Char) (s : String) :
    splitOn mark s = (s.toList.splitOn mark).map String.ofList := by
  rw [splitOn, split]
  exact congrArg (List.map String.ofList) (Splitter.closed_append_underWay_start _ _)

/-! ### Ends -/

theorem dropEndWhile_append_cons {p : Char → Bool} {c : Char} (h : p c = false)
    (cs ds : List Char) :
    dropEndWhile p (cs ++ c :: ds) = cs ++ c :: dropEndWhile p ds := by
  induction ds using List.reverseRecOn with
  | nil => simp [dropEndWhile, h]
  | append_singleton ds d ih =>
    cases hd : p d with
    | true => simpa [dropEndWhile, hd] using ih
    | false => simp [dropEndWhile, hd]

theorem dropEndWhile_concat {p : Char → Bool} {c : Char} (h : p c = false) (cs : List Char) :
    dropEndWhile p (cs ++ [c]) = cs ++ [c] := dropEndWhile_append_cons h cs []

theorem dropEndWhile_eq_nil_iff {p : Char → Bool} {cs : List Char} :
    dropEndWhile p cs = [] ↔ ∀ c ∈ cs, p c = true := by
  rw [dropEndWhile, List.reverse_eq_nil_iff, List.dropWhile_eq_nil_iff]
  exact forall_congr' fun c => by rw [List.mem_reverse]

/-- Nothing is left of a text of blanks, and of no other text. -/
theorem trim_eq_empty_iff {s : String} : trim s = "" ↔ allBlank s = true := by
  rw [← String.toList_eq_nil_iff, toList_trim, dropEndWhile_eq_nil_iff, allBlank, List.all_eq_true]
  constructor
  · intro h c hc
    rw [← List.takeWhile_append_dropWhile (p := isBlank) (l := s.toList), List.mem_append] at hc
    obtain hc | hc := hc
    · exact List.mem_takeWhile_imp hc
    · exact h c hc
  · intro h c hc
    exact h c ((List.dropWhile_suffix isBlank).mem hc)

/-- Trimming adds no characters. -/
theorem mem_of_mem_trimEnd {c : Char} {s : String} (h : c ∈ (trimEnd s).toList) : c ∈ s.toList := by
  rw [toList_trimEnd, dropEndWhile, List.mem_reverse] at h
  exact List.mem_reverse.mp ((List.dropWhile_suffix isBlank).mem h)

/-! ### Texts inside texts -/

theorem occursIn_iff {inner cs : List Char} : occursIn inner cs = true ↔ inner <:+: cs := by
  induction cs with
  | nil => rw [occursIn, List.isEmpty_iff, List.infix_nil]
  | cons c cs ih =>
    rw [occursIn, Bool.or_eq_true, List.isPrefixOf_iff_prefix, ih, List.infix_cons_iff]

theorem contains_iff {s inner : String} : contains s inner = true ↔ inner.toList <:+: s.toList :=
  occursIn_iff

end Parley.Text
