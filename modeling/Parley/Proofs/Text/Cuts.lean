import Mathlib.Data.List.Infix
import Mathlib.Data.List.TakeWhile
import Parley.Text.Pieces

/-!
# Where a text is cut

What follows a known beginning, precedes a known end, or stands around the first occurrence of a
mark is said by how the text is put together (`after?_eq_some_iff`, `before?_eq_some_iff`,
`splitOnce?_eq_some_iff`).  A text is the first occurrence of a mark when the first character of the
mark is not met before it (`splitOnceText?_append`).
-/

namespace Parley.Text

variable {s rest : String}

/-! ### Beginnings and ends -/

theorem after?_append (start s : String) : after? start (start ++ s) = some s := by
  rw [after?, String.toList_append, if_pos (by simp)]
  simp [← String.length_toList]

theorem after?_eq_some_iff {start : String} : after? start s = some rest ↔ s = start ++ rest := by
  constructor
  · intro h
    rw [after?] at h
    split at h
    · next hprefix =>
      obtain ⟨cs, hcs⟩ := List.isPrefixOf_iff_prefix.mp hprefix
      have hrest : String.ofList cs = rest := by
        rw [← hcs, ← String.length_toList, List.drop_left] at h
        exact Option.some.inj h
      rw [← String.toList_inj, String.toList_append, ← hrest, String.toList_ofList, hcs]
    · cases h
  · rintro rfl
    exact after?_append start rest

theorem before?_eq_some_iff {stop : String} : before? stop s = some rest ↔ s = rest ++ stop := by
  constructor
  · intro h
    rw [before?] at h
    split at h
    · next hsuffix =>
      obtain ⟨cs, hcs⟩ := List.isSuffixOf_iff_suffix.mp hsuffix
      have hlength : s.length - stop.length = cs.length := by
        rw [← String.length_toList, ← String.length_toList, ← hcs, List.length_append]
        omega
      have hrest : String.ofList cs = rest := by
        rw [hlength, ← hcs, List.take_left] at h
        exact Option.some.inj h
      rw [← String.toList_inj, String.toList_append, ← hrest, String.toList_ofList, hcs]
    · cases h
  · rintro rfl
    have hlength : (rest ++ stop).length - stop.length = rest.toList.length := by
      rw [String.length_append, String.length_toList]
      omega
    rw [before?, hlength, String.toList_append, if_pos (by simp), List.take_left,
      String.ofList_toList]

/-! ### First occurrences -/

theorem splitOnce?_eq_some_iff {mark : Char} {a b : String} :
    splitOnce? mark s = some (a, b) ↔ s.toList = a.toList ++ mark :: b.toList ∧
    mark ∉ a.toList := by
  rw [splitOnce?, List.span_eq_takeWhile_dropWhile]
  constructor
  · intro h
    have hsplit := List.takeWhile_append_dropWhile (p := (· != mark)) (l := s.toList)
    cases hrest : s.toList.dropWhile (· != mark) with
    | nil =>
      rw [hrest] at h
      cases h
    | cons c cs =>
      rw [hrest] at h hsplit
      obtain ⟨rfl, rfl⟩ := Prod.mk.inj (Option.some.inj h)
      -- what is not taken begins with the mark
      obtain rfl : c = mark := by
        have hstop := List.head?_dropWhile_not (· != mark) s.toList
        rw [hrest] at hstop
        simpa using hstop
      rw [String.toList_ofList, String.toList_ofList, hsplit]
      refine ⟨rfl, fun hmem => ?_⟩
      have htaken := List.mem_takeWhile_imp hmem
      simp at htaken
  · rintro ⟨hs, hmark⟩
    have htaken : ∀ c ∈ a.toList, (c != mark) = true := by
      rintro c hc
      rw [bne_iff_ne]
      rintro rfl
      exact hmark hc
    rw [hs, List.takeWhile_append_of_pos htaken, List.dropWhile_append_of_pos htaken]
    simp

theorem splitOnceAt_append {c : Char} {cs front : List Char} (h : c ∉ front)
    (before rest : List Char) :
    splitOnceAt (c :: cs) before (front ++ (c :: cs) ++ rest) =
      some (before.reverse ++ front, rest) := by
  induction front generalizing before with
  | nil =>
    rw [List.nil_append, List.cons_append, splitOnceAt, ← List.cons_append, if_pos (by simp),
      List.drop_left, List.append_nil]
  | cons d front ih =>
    -- the mark does not begin here
    have hno : ¬ (c :: cs).isPrefixOf (d :: (front ++ (c :: cs) ++ rest)) = true := by
      rw [List.isPrefixOf_iff_prefix, List.cons_prefix_cons]
      exact fun hprefix => List.ne_of_not_mem_cons h hprefix.1
    have hfront : c ∉ front := List.not_mem_of_not_mem_cons h
    rw [List.cons_append, List.cons_append, splitOnceAt, if_neg hno, ih hfront, List.reverse_cons,
      List.append_assoc, List.singleton_append]

/-- A mark is found where its first character stands for the first time. -/
theorem splitOnceText?_append {mark a : String} {c : Char} {cs : List Char}
    (hmark : mark.toList = c :: cs) (h : c ∉ a.toList) (b : String) :
    splitOnceText? mark (a ++ mark ++ b) = some (a, b) := by
  rw [splitOnceText?, String.toList_append, String.toList_append, hmark, splitOnceAt_append h]
  simp

end Parley.Text
