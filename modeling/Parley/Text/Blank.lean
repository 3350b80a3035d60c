/-!
# White space, and cutting it off the ends of a text

A character is *blank* when it has the Unicode property White_Space; `isBlank` is that class, and
`trim` and `trimEnd` cut the longest blank run off the ends of a text.  A text is `allBlank` when it
holds nothing else.

The functions work on the character list of a text, where each is one library operator
(`dropWhile`), so that what they keep and what they drop can be read off that operator's lemmas.
-/

namespace Parley.Text

/-! ### The class -/

/-- The characters with the property White_Space: the ASCII blanks, the next-line and no-break
characters, and the spaces and separators of the punctuation blocks. -/
def isBlank (c : Char) : Bool :=
  (9 ≤ c.val && c.val ≤ 13) || c.val == 32 || c.val == 0x85 || c.val == 0xA0 || c.val == 0x1680 ||
    (0x2000 ≤ c.val && c.val ≤ 0x200A) || c.val == 0x2028 || c.val == 0x2029 || c.val == 0x202F ||
    c.val == 0x205F || c.val == 0x3000

/-! ### Trimming -/

/-- Drop the longest run of characters at the end that satisfy `p`. -/
def dropEndWhile (p : Char → Bool) (cs : List Char) : List Char :=
  (cs.reverse.dropWhile p).reverse

/-- The text without its trailing blanks. -/
def trimEnd (s : String) : String := String.ofList (dropEndWhile isBlank s.toList)

/-- The text without its leading and trailing blanks. -/
def trim (s : String) : String :=
  String.ofList (dropEndWhile isBlank (s.toList.dropWhile isBlank))

/-- Whether a text holds no character but blanks. -/
def allBlank (s : String) : Bool := s.toList.all isBlank

@[simp] theorem toList_trim (s : String) :
    (trim s).toList = dropEndWhile isBlank (s.toList.dropWhile isBlank) := by
  simp [trim]

@[simp] theorem toList_trimEnd (s : String) :
    (trimEnd s).toList = dropEndWhile isBlank s.toList := by
  simp [trimEnd]

end Parley.Text
