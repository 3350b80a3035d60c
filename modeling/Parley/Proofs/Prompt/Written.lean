import Mathlib.Data.List.Basic
import Parley.Prompt.Template.Parser

/-!
# Templates as they are written

A template is written part by part: a text, and a mark behind it (`written`).  `pieces_written`:
what is written in this way is cut into just these parts again.  So its nodes can be read mark by
mark (`ofTemplate?_written`), and nobody has to look at a template character by character to know
them.
-/

namespace Parley.Prompt

/-! ### Marks -/

/-- The character behind the brace that opens a mark. -/
def opener : Enclosed → Char
  | .value => '\x7b'
  | .tag => '%'
  | .remark => '#'

theorem opened?_opener (kind : Enclosed) : opened? (opener kind) = some kind := by
  cases kind <;> rfl

theorem quoteAfter_eq_none {c : Char} (hc : isQuote c = false) (kind : Enclosed) :
    quoteAfter kind none c = none := by
  simp [quoteAfter, hc]

/-- The hyphen that cuts off blanks. -/
def hyphen (trims : Bool) : List Char := if trims then ['-'] else []

/-- The hyphens are taken away from what stands between blanks. -/
theorem enclose_hyphens (kind : Enclosed) (cs : List Char) (before after : Bool) :
    enclose kind (hyphen before ++ (' ' :: cs ++ [' ']) ++ hyphen after) =
      .enclosed kind (' ' :: cs ++ [' ']) before after := by
  have hlast (d : Char) : (' ' :: (cs ++ [' ', d])).getLast? = some d := by
    rw [← List.cons_append, List.getLast?_append]
    rfl
  have hblank : (' ' :: (cs ++ [' '])).getLast? = some ' ' := by
    rw [← List.cons_append, List.getLast?_concat]
  have hdrop : (' ' :: (cs ++ [' ', '-'])).dropLast = ' ' :: (cs ++ [' ']) := by
    rw [← List.cons_append, List.dropLast_append_of_ne_nil (by simp)]
    rfl
  cases before <;> cases after <;> simp [enclose, hyphen, hlast, hblank, hdrop]

/-- A value, a tag or a remark with its braces. -/
structure Mark where
  /-- What it is. -/
  kind : Enclosed
  /-- What stands in it, without the blanks around it. -/
  inside : String
  /-- Whether blanks before it are cut off. -/
  trimsBefore : Bool := false
  /-- Whether blanks behind it are cut off. -/
  trimsAfter : Bool := false

namespace Mark

/-- What stands between the hyphens. -/
def spaced (m : Mark) : List Char := ' ' :: m.inside.toList ++ [' ']

/-- What stands between the braces and their companions. -/
def enclosed (m : Mark) : List Char := hyphen m.trimsBefore ++ m.spaced ++ hyphen m.trimsAfter

/-- A mark as it is written. -/
def chars (m : Mark) : List Char :=
  '\x7b' :: opener m.kind :: (m.enclosed ++ [closing m.kind, '\x7d'])

/-- The piece of a mark. -/
def piece (m : Mark) : Piece := .enclosed m.kind m.spaced m.trimsBefore m.trimsAfter

/-- Whether a character does not help to close a mark, or hide that it is closed. -/
def isPlainChar (c : Char) : Bool := c ≠ '\x7d' && !isQuote c

/-- Whether all characters in a mark are such. -/
def IsPlain (m : Mark) : Prop := m.inside.toList.all isPlainChar = true

instance (m : Mark) : Decidable m.IsPlain := inferInstanceAs (Decidable (_ = true))

theorem isPlainChar_iff {c : Char} : isPlainChar c = true ↔ c ≠ '\x7d' ∧ isQuote c = false := by
  simp [isPlainChar]

theorem IsPlain.enclosed {m : Mark} (h : m.IsPlain) :
    ∀ c ∈ m.enclosed, c ≠ '\x7d' ∧ isQuote c = false := by
  have hhyphen (trims : Bool) : (hyphen trims).all isPlainChar = true := by cases trims <;> decide
  have hall : m.enclosed.all isPlainChar = true := by
    rw [Mark.enclosed, spaced, List.all_append, List.all_append, hhyphen, hhyphen, List.cons_append,
      List.all_cons, List.all_append, h]
    decide
  exact fun c hc => isPlainChar_iff.mp (List.all_eq_true.mp hall c hc)

end Mark

/-! ### Cutting -/

section

variable {cs rest : List Char} {done : List Piece}

/-- A text goes on up to the next mark. -/
theorem piecesFrom_text (hcs : '\x7b' ∉ cs) (kind : Enclosed) (read : List Char) :
    piecesFrom (.text read) done (cs ++ '\x7b' :: opener kind :: rest) =
      piecesFrom (.inside kind none []) (.text (read.reverse ++ cs) :: done) rest := by
  induction cs generalizing read with
  | nil => simp [piecesFrom, opened?_opener]
  | cons c cs ih =>
    obtain ⟨hc, hcs⟩ := List.ne_and_not_mem_of_not_mem_cons hcs
    -- A mark is seen by two characters, so the step needs one behind `c`; the mark that follows
    -- provides it.
    have hstep (d : Char) (ds : List Char) :
        piecesFrom (.text read) done (c :: d :: ds) =
          piecesFrom (.text (c :: read)) done (d :: ds) := by
      rw [piecesFrom, if_neg (Ne.symm hc)]
    obtain ⟨d, ds, hds⟩ : ∃ d ds, cs ++ '\x7b' :: opener kind :: rest = d :: ds :=
      List.exists_cons_of_ne_nil (by simp)
    rw [List.cons_append, hds, hstep, ← hds, ih hcs]
    simp

/-- The last text goes on to the end. -/
theorem piecesFrom_last (hcs : '\x7b' ∉ cs) (read : List Char) :
    piecesFrom (.text read) done cs = some (done.reverse ++ [.text (read.reverse ++ cs)]) := by
  induction cs generalizing read with
  | nil => simp [piecesFrom]
  | cons c cs ih =>
    obtain ⟨hc, hrest⟩ := List.ne_and_not_mem_of_not_mem_cons hcs
    cases cs with
    | nil => simp [piecesFrom]
    | cons d ds =>
      rw [piecesFrom, if_neg (Ne.symm hc), ih hrest]
      simp

/-- What stands between two marks goes on up to the closing one. -/
theorem piecesFrom_inside (kind : Enclosed) (hcs : ∀ c ∈ cs, c ≠ '\x7d' ∧ isQuote c = false)
    (read : List Char) :
    piecesFrom (.inside kind none read) done (cs ++ closing kind :: '\x7d' :: rest) =
      piecesFrom (.text []) (enclose kind (read.reverse ++ cs) :: done) rest := by
  induction cs generalizing read with
  | nil => simp [piecesFrom]
  | cons c cs ih =>
    obtain ⟨⟨hc, hquote⟩, hcs⟩ := List.forall_mem_cons.mp hcs
    -- The mark is not closed yet: the brace that closes it is not the next character.
    have hopen {d : Char} {ds : List Char} (hds : cs ++ closing kind :: '\x7d' :: rest = d :: ds) :
        ¬ (c = closing kind ∧ d = '\x7d') := by
      rintro ⟨hclosing, hd⟩
      cases cs with
      | nil => exact hc (hclosing.trans ((List.cons.inj hds).1.trans hd))
      | cons e es => exact (hcs e List.mem_cons_self).1 ((List.cons.inj hds).1.trans hd)
    obtain ⟨d, ds, hds⟩ : ∃ d ds, cs ++ closing kind :: '\x7d' :: rest = d :: ds :=
      List.exists_cons_of_ne_nil (by simp)
    have hstep : piecesFrom (.inside kind none read) done (c :: d :: ds) =
        piecesFrom (.inside kind none (c :: read)) done (d :: ds) := by
      rw [piecesFrom, if_neg (by simpa using hopen hds), quoteAfter_eq_none hquote]
    rw [List.cons_append, hds, hstep, ← hds, ih hcs]
    simp

/-- A mark ends the text before it, and is a piece of its own. -/
theorem piecesFrom_mark {m : Mark} (hm : m.IsPlain) (hcs : '\x7b' ∉ cs) :
    piecesFrom (.text []) done (cs ++ m.chars ++ rest) =
      piecesFrom (.text []) (m.piece :: .text cs :: done) rest := by
  rw [Mark.chars, List.append_assoc, List.cons_append, List.cons_append, List.append_assoc,
    piecesFrom_text hcs, List.cons_append, List.singleton_append,
    piecesFrom_inside m.kind hm.enclosed, List.reverse_nil, List.nil_append, List.nil_append,
    Mark.enclosed, Mark.spaced, enclose_hyphens]
  rfl

end

/-! ### Templates -/

/-- A template as it is written: texts with a mark behind each of them, and a last text. -/
def written (parts : List (String × Mark)) (last : String) : List Char :=
  parts.flatMap (fun (text, m) => text.toList ++ m.chars) ++ last.toList

/-- Its pieces. -/
def writtenPieces (parts : List (String × Mark)) (last : String) : List Piece :=
  parts.flatMap (fun (text, m) => [.text text.toList, m.piece]) ++ [.text last.toList]

/-- Whether no text of a template could be taken for a mark, and no mark for a longer or a shorter
one. -/
structure IsPlain (parts : List (String × Mark)) (last : String) : Prop where
  texts : ∀ p ∈ parts, '\x7b' ∉ p.1.toList
  marks : ∀ p ∈ parts, p.2.IsPlain
  last : '\x7b' ∉ last.toList

/-- **What is written is what is read**: a template is cut into the texts and the marks that it is
made of. -/
theorem pieces_written {parts : List (String × Mark)} {last : String} (h : IsPlain parts last) :
    pieces (written parts last) = some (writtenPieces parts last) := by
  have hfrom (done : List Piece) : piecesFrom (.text []) done (written parts last) =
      some (done.reverse ++ writtenPieces parts last) := by
    obtain ⟨htexts, hmarks, hlast⟩ := h
    induction parts generalizing done with
    | nil => exact piecesFrom_last hlast []
    | cons p parts ih =>
      obtain ⟨htext, htexts⟩ := List.forall_mem_cons.mp htexts
      obtain ⟨hmark, hmarks⟩ := List.forall_mem_cons.mp hmarks
      rw [written, List.flatMap_cons, List.append_assoc, piecesFrom_mark hmark htext, ← written,
        ih _ htexts hmarks]
      simp [writtenPieces]
  exact hfrom []

/-- A tag is taken by its tokens. -/
theorem Reader.take_tag {m : Mark} (ts : List Token) (hkind : m.kind = .tag)
    (hts : tokens m.spaced = some ts) (r : Reader) : r.take m.piece = r.takeTag ts := by
  rw [Mark.piece, hkind, Reader.take, hts, Option.bind_eq_bind, Option.bind_some]

/-- A value is the expression that its tokens spell. -/
theorem Reader.take_value {m : Mark} {e : Expr} (ts : List Token) (hkind : m.kind = .value)
    (hts : tokens m.spaced = some ts) (he : Expr.ofTokens? ts = some e) (r : Reader) :
    r.take m.piece = some { r with nodes := .output e :: r.nodes } := by
  rw [Mark.piece, hkind, Reader.take, hts]
  simp only [Option.bind_eq_bind, Option.bind_some, he]
  rfl

/-- A text without the blanks that the marks before and behind it cut off. -/
def cutText (front back : Bool) (s : String) : String :=
  let cs := if front then s.toList.dropWhile Text.isBlank else s.toList
  String.ofList (if back then Text.dropEndWhile Text.isBlank cs else cs)

/-- Read a template mark by mark; `front` says whether the mark before the first text cuts off
blanks. -/
def Reader.takeParts (r : Reader) (front : Bool) (last : String) :
    List (String × Mark) → Option Reader
  | [] => some { r with nodes := .text (cutText front false last) :: r.nodes }
  | (text, m) :: rest => do
    let r ← { r with nodes := .text (cutText front m.trimsBefore text) :: r.nodes }.take m.piece
    r.takeParts m.trimsAfter last rest

/-- To read the pieces of a template is to read it mark by mark. -/
theorem foldlM_take_writtenPieces (parts : List (String × Mark)) (last : String) (r : Reader)
    (front : Bool) :
    (trimPieces front (writtenPieces parts last)).foldlM Reader.take r =
      r.takeParts front last parts := by
  induction parts generalizing r front with
  | nil => cases front <;> rfl
  | cons p parts ih =>
    have htrim : trimPieces front (writtenPieces (p :: parts) last) =
        .text (cutText front p.2.trimsBefore p.1).toList :: p.2.piece ::
          trimPieces p.2.trimsAfter (writtenPieces parts last) := by
      simp only [writtenPieces, List.flatMap_cons, List.cons_append, List.nil_append, trimPieces,
        List.head?_cons, Option.map_some, Option.getD_some, cutText, String.toList_ofList]
      rfl
    have htext : r.take (.text (cutText front p.2.trimsBefore p.1).toList) =
        some { r with nodes := .text (cutText front p.2.trimsBefore p.1) :: r.nodes } := by
      rw [Reader.take, String.ofList_toList]
    rw [htrim, List.foldlM_cons, htext, Option.bind_eq_bind, Option.bind_some, List.foldlM_cons]
    simp only [ih]
    rfl

/-- The nodes of a template. -/
theorem ofTemplate?_written {template : String} {parts : List (String × Mark)} {last : String}
    {nodes : List Node} (hwritten : template.toList = written parts last)
    (hplain : IsPlain parts last)
    (hread : ({} : Reader).takeParts false last parts = some ⟨nodes.reverse, []⟩) :
    Node.ofTemplate? template = some nodes := by
  rw [Node.ofTemplate?, hwritten, pieces_written hplain]
  simp only [Option.bind_eq_bind, Option.bind_some, foldlM_take_writtenPieces, hread,
    List.isEmpty_nil, if_true, List.reverse_reverse]

theorem loadPrompt_eq {template : String} {nodes : List Node}
    (h : Node.ofTemplate? template = some nodes) (bindings : Scope) :
    loadPrompt template (.obj bindings) = Node.renderAll bindings nodes := by
  unfold loadPrompt
  rw [h]

end Parley.Prompt
