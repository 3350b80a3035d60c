/-!
# Names that models accept for tools

A tool name is made of ASCII letters and digits, underscores and hyphens.  `isValidName` recognises
such names and `sanitizeName` turns any text into characters of that kind, which leaves valid names
alone (`sanitizeName_of_isValidName`).
-/

namespace Parley.Tool

/-- The characters of a tool name. -/
def isNameChar (c : Char) : Bool := c.isAlphanum || c = '_' || c = '-'

/-- Whether a text is a tool name: not empty, and made of name characters. -/
def isValidName (s : String) : Bool := !s.toList.isEmpty && s.toList.all isNameChar

/-- The text with an underscore in place of every character that no tool name has. -/
def sanitizeName (s : String) : String :=
  String.ofList (s.toList.map fun c => if isNameChar c then c else '_')

/-- A valid name stays as it is. -/
theorem sanitizeName_of_isValidName {s : String} (h : isValidName s = true) :
    sanitizeName s = s := by
  simp only [isValidName, Bool.and_eq_true, List.all_eq_true] at h
  have : s.toList.map (fun c => if isNameChar c then c else '_') = s.toList := by
    conv => rhs; rw [← List.map_id s.toList]
    exact List.map_congr_left fun c hc => by simp [h.2 c hc]
  rw [sanitizeName, this, String.ofList_toList]

end Parley.Tool
