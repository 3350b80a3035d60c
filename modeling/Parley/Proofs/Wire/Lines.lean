import Parley.Proofs.Text.Pieces
import Parley.Wire.Assembly

/-!
# Lines that hold an object

The text of an object begins and ends with a brace, so nothing is cut off when a line that holds one
is read: as the whole line (`trim_print`) or behind `data:` (`dataOf?_dataLine`).
-/

namespace Parley.Wire

/-- The line of an event stream that holds a value. -/
def dataLine (v : Json) : String := "data: " ++ v.print

theorem isBlank_brace : Text.isBlank '\x7d' = false := by decide

variable (members : List (String × Json))

theorem exists_chars_eq : ∃ cs, (Json.obj members).chars = '\x7b' :: (cs ++ ['\x7d']) :=
  ⟨Json.membersChars members, by rw [Json.chars, List.cons_append]⟩

theorem trim_print : Text.trim (Json.obj members).print = (Json.obj members).print := by
  obtain ⟨cs, hcs⟩ := exists_chars_eq members
  rw [String.ext_iff, Text.toList_trim, Json.toList_print, hcs]
  exact Text.dropEndWhile_concat isBlank_brace ('\x7b' :: cs)

theorem dataOf?_dataLine : dataOf? (dataLine (.obj members)) = some (Json.obj members).print := by
  obtain ⟨cs, hcs⟩ := exists_chars_eq members
  have hchars :
      (dataLine (.obj members)).toList = "data:".toList ++ ' ' :: (Json.obj members).chars := by
    rw [dataLine, String.toList_append, Json.toList_print]
    rfl
  have hline : Text.trimEnd (dataLine (.obj members)) = dataLine (.obj members) := by
    rw [String.ext_iff, Text.toList_trimEnd, hchars, hcs]
    exact Text.dropEndWhile_concat isBlank_brace ("data:".toList ++ ' ' :: '\x7b' :: cs)
  have hafter : Text.after? "data:" (dataLine (.obj members))
      = some (String.ofList (' ' :: (Json.obj members).chars)) := by
    rw [Text.after?, hchars, if_pos (by simp)]
    rfl
  have htrim : Text.trim (String.ofList (' ' :: (Json.obj members).chars)) =
      (Json.obj members).print := by
    rw [← trim_print, String.ext_iff, Text.toList_trim, Text.toList_trim, String.toList_ofList,
      Json.toList_print]
    rfl
  have hnot : ¬ ((dataLine (.obj members)).isEmpty || (dataLine (.obj members)).toList.head? =
      some ':') = true := by
    rw [hchars, Bool.or_eq_true, String.isEmpty_iff, ← String.toList_eq_nil_iff, hchars]
    simp
  simp only [dataOf?, hline]
  rw [if_neg hnot, hafter, Option.map_some, htrim]

end Parley.Wire
