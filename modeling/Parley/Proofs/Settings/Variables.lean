import Mathlib.Data.Set.Function
import Parley.Proofs.Text.Cuts
import Parley.Proofs.Text.Pieces
import Parley.Settings.Basic

/-!
# Variables of settings

The variable of a path has two underscores between the names of the path, and a name may hold
underscores too.  The names can be read back when none of them has two underscores in a row or one
at an end (`IsName`): then the first two underscores in a row are those behind the first name
(`pieces_append`).

`segments?_variableOf`: the environment reads the names of a path off its variable.  So different
paths have different variables (`injOn_variableOf`).
-/

namespace Parley

namespace Text

/-! ### Texts of ASCII characters -/

/-- What holds of the characters of a separator and of some texts holds of those of the joined
text. -/
theorem forall_mem_join {P : Char → Prop} {separator : String}
    (hseparator : ∀ c ∈ separator.toList, P c) {texts : List String}
    (h : ∀ t ∈ texts, ∀ c ∈ t.toList, P c) : ∀ c ∈ (join separator texts).toList, P c := by
  induction texts with
  | nil => exact fun c hc => nomatch hc
  | cons t texts ih =>
    obtain ⟨ht, htexts⟩ := List.forall_mem_cons.mp h
    cases texts with
    | nil =>
      rw [join, String.intercalate_singleton]
      exact ht
    | cons u texts =>
      intro c hc
      rw [join, String.intercalate_cons_cons, String.toList_append, String.toList_append,
        List.mem_append, List.mem_append] at hc
      obtain (hc | hc) | hc := hc
      · exact ht c hc
      · exact hseparator c hc
      · exact ih htexts c hc

/-- Whether all characters of a text are of ASCII. -/
def IsAscii (s : String) : Prop := ∀ c ∈ s.toList, c.val < 0x80

instance : DecidablePred IsAscii :=
  fun s => List.decidableBAll (fun c : Char => c.val < 0x80) s.toList

theorem IsAscii.append {s t : String} (hs : IsAscii s) (ht : IsAscii t) : IsAscii (s ++ t) := by
  intro c hc
  rw [String.toList_append, List.mem_append] at hc
  exact hc.elim (hs c) (ht c)

theorem IsAscii.join {separator : String} (hseparator : IsAscii separator) {texts : List String}
    (h : ∀ t ∈ texts, IsAscii t) : IsAscii (Text.join separator texts) :=
  forall_mem_join hseparator h

/-- They are put into lower case letter by letter. -/
theorem IsAscii.lower_eq {s : String} (h : IsAscii s) : lower s = lowerAscii s := by
  -- only a final sigma looks at its neighbours, and there is none
  have honto (before written cs : List Char) (hcs : ∀ c ∈ cs, c.val < 0x80) :
      Casing.lowerOnto before written cs = written.reverse ++ cs.map Char.toLower := by
    induction cs generalizing before written with
    | nil => rw [Casing.lowerOnto, List.map_nil, List.append_nil]
    | cons c cs ih =>
      obtain ⟨hc, hcs⟩ := List.forall_mem_cons.mp hcs
      have hsigma : ¬ (c.val == 0x3A3) = true := by
        rw [beq_iff_eq]
        intro heq
        rw [heq] at hc
        exact absurd hc (by decide)
      have hlower : Casing.lowerBetween before c cs = [c.toLower] := by
        rw [Casing.lowerBetween, if_neg hsigma, Casing.lowerChar, if_pos hc]
      rw [Casing.lowerOnto, hlower, ih _ _ hcs]
      simp
  rw [lower, lowerAscii, honto [] [] s.toList h]
  rfl

/-- They are put into upper case letter by letter. -/
theorem IsAscii.upper_eq {s : String} (h : IsAscii s) : upper s = upperAscii s := by
  rw [upper, upperAscii, List.map_eq_flatMap]
  refine congrArg _ (List.flatMap_congr fun c hc => ?_)
  rw [Casing.upperChar, if_pos (h c hc)]

theorem lowerAscii_append (s t : String) : lowerAscii (s ++ t) = lowerAscii s ++ lowerAscii t := by
  rw [lowerAscii, String.toList_append, List.map_append, String.ofList_append,
    lowerAscii, lowerAscii]

theorem lowerAscii_join (separator : String) (texts : List String) :
    lowerAscii (join separator texts) = join (lowerAscii separator) (texts.map lowerAscii) := by
  induction texts with
  | nil => rfl
  | cons t texts ih =>
    cases texts with
    | nil => rw [join, String.intercalate_singleton, List.map_singleton, join,
        String.intercalate_singleton]
    | cons u texts =>
      rw [join, join, List.map_cons] at ih
      rw [join, join, String.intercalate_cons_cons, lowerAscii_append, lowerAscii_append, ih,
        List.map_cons, List.map_cons, String.intercalate_cons_cons]

/-! ### Joined texts -/

/-- Texts that were joined with a mark which none of them holds are cut apart again. -/
theorem splitOn_join {mark : Char} {texts : List String} (hne : texts ≠ [])
    (h : ∀ t ∈ texts, mark ∉ t.toList) :
    splitOn mark (join (String.singleton mark) texts) = texts := by
  have hchars : ∀ cs ∈ texts.map String.toList, mark ∉ cs := by
    intro cs hcs
    obtain ⟨t, ht, rfl⟩ := List.mem_map.mp hcs
    exact h t ht
  have hmark : (String.singleton mark).toList = [mark] := String.toList_singleton mark
  rw [splitOn_eq, join, String.toList_intercalate, hmark,
    List.splitOn_intercalate mark hchars (List.map_eq_nil_iff.not.mpr hne), List.map_map]
  exact List.map_id'' (fun _ => String.ofList_toList) texts

end Text

namespace Settings

/-! ### Characters of names -/

/-- Whether a character is a small letter, a digit or an underscore. -/
def IsSpelled (c : Char) : Prop := ('a' ≤ c ∧ c ≤ 'z') ∨ ('0' ≤ c ∧ c ≤ '9') ∨ c = '_'

instance : DecidablePred IsSpelled := fun _ => inferInstanceAs (Decidable (_ ∨ _ ∨ _))

namespace IsSpelled

variable {c : Char}

/-- What holds of the first 128 characters, as far as they are such, holds of all such. -/
theorem of_lt (hc : IsSpelled c) (P : Char → Prop)
    (h : ∀ n < 128, IsSpelled (Char.ofNat n) → P (Char.ofNat n)) :
    P c := by
  have hsmall : c.toNat < 128 := by
    obtain ⟨-, hle⟩ | ⟨-, hle⟩ | rfl := hc
    · rw [Char.le_def, UInt32.le_iff_toNat_le] at hle
      exact Nat.lt_of_le_of_lt hle (by decide)
    · rw [Char.le_def, UInt32.le_iff_toNat_le] at hle
      exact Nat.lt_of_le_of_lt hle (by decide)
    · decide
  have hcode := h c.toNat hsmall
  rw [Char.ofNat_toNat] at hcode
  exact hcode hc

theorem isAscii (h : IsSpelled c) : c.val < 0x80 :=
  h.of_lt (fun c => c.val < 0x80) (by decide +kernel)

theorem isAscii_toUpper (h : IsSpelled c) : c.toUpper.val < 0x80 :=
  h.of_lt (fun c => c.toUpper.val < 0x80) (by decide +kernel)

theorem toLower_eq (h : IsSpelled c) : c.toLower = c :=
  h.of_lt (fun c => c.toLower = c) (by decide +kernel)

theorem toLower_toUpper (h : IsSpelled c) : c.toUpper.toLower = c :=
  h.of_lt (fun c => c.toUpper.toLower = c) (by decide +kernel)

theorem isNameChar (h : IsSpelled c) : Settings.isNameChar c = true :=
  h.of_lt (fun c => Settings.isNameChar c = true) (by decide +kernel)

theorem ne_point (h : IsSpelled c) : c ≠ '.' := h.of_lt (fun c => c ≠ '.') (by decide +kernel)

theorem ne_quote (h : IsSpelled c) : c ≠ quote := h.of_lt (fun c => c ≠ quote) (by decide +kernel)

end IsSpelled

/-! ### Names that can be read back -/

/-- Whether a text is a name that can be read off a variable. -/
structure IsName (name : String) : Prop where
  /-- There is something to read. -/
  ne_empty : name ≠ ""
  /-- It consists of small letters, digits and underscores. -/
  spelled : ∀ c ∈ name.toList, IsSpelled c
  /-- It does not begin with an underscore. -/
  start : name.toList.head? ≠ some '_'
  /-- It does not end with one. -/
  stop : name.toList.getLast? ≠ some '_'
  /-- It has no two in a row. -/
  single : ¬ ['_', '_'] <:+: name.toList

theorem isName_iff {name : String} :
    IsName name ↔ name ≠ "" ∧ name.toList.all (IsSpelled ·) = true ∧
    name.toList.head? ≠ some '_' ∧ name.toList.getLast? ≠ some '_' ∧
    ¬ ['_', '_'] <:+: name.toList := by
  rw [List.all_eq_true]
  constructor
  · intro h
    exact ⟨h.ne_empty, fun c hc => decide_eq_true (h.spelled c hc), h.start, h.stop, h.single⟩
  · rintro ⟨hempty, hspelled, hstart, hstop, hsingle⟩
    exact ⟨hempty, fun c hc => of_decide_eq_true (hspelled c hc), hstart, hstop, hsingle⟩

instance : DecidablePred IsName := fun _ => decidable_of_iff _ isName_iff.symm

/-- Whether a list of names is a path of such names. -/
def IsPath (names : List String) : Prop := names ≠ [] ∧ ∀ n ∈ names, IsName n

instance : DecidablePred IsPath := fun _ => inferInstanceAs (Decidable (_ ∧ _))

theorem IsPath.concat {names : List String} {field : String} (h : IsPath names)
    (hfield : IsName field) :
    IsPath (names ++ [field]) := by
  refine ⟨List.append_ne_nil_of_left_ne_nil h.1 _, fun n hn => ?_⟩
  obtain hn | hn := List.mem_append.mp hn
  · exact h.2 n hn
  · rw [List.mem_singleton.mp hn]
    exact hfield

namespace IsName

variable {name : String}

theorem isAscii (h : IsName name) : Text.IsAscii name := fun c hc => (h.spelled c hc).isAscii

theorem isAscii_upper (h : IsName name) : Text.IsAscii (Text.upper name) := by
  rw [h.isAscii.upper_eq, Text.upperAscii]
  intro c hc
  rw [String.toList_ofList] at hc
  obtain ⟨d, hd, rfl⟩ := List.mem_map.mp hc
  exact (h.spelled d hd).isAscii_toUpper

theorem lower_eq (h : IsName name) : Text.lower name = name := by
  have hchars : name.toList.map Char.toLower = name.toList :=
    (List.map_congr_left fun c hc => (h.spelled c hc).toLower_eq).trans (List.map_id _)
  rw [h.isAscii.lower_eq, Text.lowerAscii, hchars, String.ofList_toList]

theorem lowerAscii_upper (h : IsName name) : Text.lowerAscii (Text.upper name) = name := by
  have hchars : name.toList.map (Char.toLower ∘ Char.toUpper) = name.toList :=
    (List.map_congr_left fun c hc => (h.spelled c hc).toLower_toUpper).trans (List.map_id _)
  rw [h.isAscii.upper_eq, Text.upperAscii, Text.lowerAscii, String.toList_ofList,
    List.map_map, hchars, String.ofList_toList]

theorem all_isNameChar (h : IsName name) : name.toList.all isNameChar = true :=
  List.all_eq_true.mpr fun c hc => (h.spelled c hc).isNameChar

theorem point_not_mem (h : IsName name) : '.' ∉ name.toList :=
  fun hmem => (h.spelled _ hmem).ne_point rfl

theorem quote_not_mem (h : IsName name) : quote ∉ name.toList :=
  fun hmem => (h.spelled _ hmem).ne_quote rfl

end IsName

/-- A path of such names is read as these names. -/
theorem IsPath.splitOn_join {names : List String} (h : IsPath names) :
    Text.splitOn '.' (Text.join "." names) = names :=
  Text.splitOn_join h.1 fun n hn => (h.2 n hn).point_not_mem

theorem IsPath.pathOf_join {names : List String} (h : IsPath names) :
    pathOf (Text.join "." names) = names := by
  have hall : (names.all fun n => !n.isEmpty && n.toList.all isNameChar) = true := by
    rw [List.all_eq_true]
    intro n hn
    rw [(h.2 n hn).all_isNameChar, Bool.and_true, Bool.not_eq_true', ← Bool.not_eq_true,
      String.isEmpty_iff]
    exact (h.2 n hn).ne_empty
  rw [pathOf, h.splitOn_join, if_pos hall]

theorem IsPath.join_ne_empty {names : List String} (h : IsPath names) :
    Text.join "." names ≠ "" := by
  intro hempty
  have hnames := h.splitOn_join
  rw [hempty] at hnames
  -- the only name would be empty
  exact (h.2 "" (hnames ▸ List.mem_singleton_self "")).ne_empty rfl

theorem IsPath.quote_not_mem {names : List String} (h : IsPath names) :
    quote ∉ (Text.join "." names).toList := by
  have hne : ∀ c ∈ (Text.join "." names).toList, c ≠ quote := by
    refine Text.forall_mem_join (List.forall_mem_singleton.mpr (by decide)) fun n hn c hc => ?_
    exact ((h.2 n hn).spelled c hc).ne_quote
  exact fun hmem => hne quote hmem rfl

/-- The path of a field is written behind that of its table. -/
theorem IsPath.join_concat {names : List String} (h : IsPath names) (field : String) :
    Text.join "." (names ++ [field]) = Text.join "." names ++ "." ++ field := by
  rw [Text.join, String.intercalate_append_of_ne_nil h.1 (List.cons_ne_nil field []),
    String.intercalate_singleton, Text.join]

/-! ### Pieces between two underscores -/

theorem pieces_ne_nil (cs : List Char) : pieces cs ≠ [] := by
  unfold pieces
  split
  · exact List.cons_ne_nil _ _
  · exact List.cons_ne_nil _ _
  · split <;> exact List.cons_ne_nil _ _

/-- A character with which no two underscores begin belongs to the first piece. -/
theorem pieces_cons {c : Char} {cs : List Char} (h : ¬ ['_', '_'] <+: c :: cs) :
    pieces (c :: cs) = (pieces cs).modifyHead (c :: ·) := by
  rw [pieces]
  · cases hcs : pieces cs with
    | nil => exact absurd hcs (pieces_ne_nil cs)
    | cons p ps => rfl
  · rintro rest rfl rfl
    exact h (List.prefix_append ['_', '_'] rest)

/-- A text without two underscores in a row is one piece. -/
theorem pieces_eq_singleton {p : List Char} (h : ¬ ['_', '_'] <:+: p) : pieces p = [p] := by
  induction p with
  | nil => rfl
  | cons c p ih =>
    rw [List.infix_cons_iff, not_or] at h
    rw [pieces_cons h.1, ih h.2]
    rfl

/-- **The first piece** ends where it is meant to, when it has no underscores in a row and none at
its end. -/
theorem pieces_append {p : List Char} (hsingle : ¬ ['_', '_'] <:+: p)
    (hstop : p.getLast? ≠ some '_') (rest : List Char) :
    pieces (p ++ '_' :: '_' :: rest) = p :: pieces rest := by
  induction p with
  | nil => rfl
  | cons c p ih =>
    rw [List.infix_cons_iff, not_or] at hsingle
    obtain ⟨hfront, hsingle⟩ := hsingle
    cases p with
    | nil =>
      -- the first of the underscores behind the piece must not find one before it
      have hfront : ¬ ['_', '_'] <+: c :: '_' :: '_' :: rest := by
        rw [List.cons_prefix_cons]
        rintro ⟨rfl, -⟩
        exact hstop rfl
      rw [List.singleton_append, pieces_cons hfront]
      rfl
    | cons d p =>
      have hfront : ¬ ['_', '_'] <+: c :: (d :: p ++ '_' :: '_' :: rest) := by
        rw [List.cons_append, List.cons_prefix_cons, List.cons_prefix_cons]
        rintro ⟨rfl, rfl, -⟩
        exact hfront (List.prefix_append ['_', '_'] p)
      rw [List.getLast?_cons_cons] at hstop
      rw [List.cons_append, pieces_cons hfront, ih hsingle hstop]
      rfl

theorem pieces_intercalate {ps : List (List Char)} (hne : ps ≠ [])
    (h : ∀ p ∈ ps, ¬ ['_', '_'] <:+: p ∧ p.getLast? ≠ some '_') :
    pieces (['_', '_'].intercalate ps) = ps := by
  induction ps with
  | nil => exact absurd rfl hne
  | cons p ps ih =>
    obtain ⟨⟨hsingle, hstop⟩, hps⟩ := List.forall_mem_cons.mp h
    cases ps with
    | nil => rw [List.intercalate_singleton, pieces_eq_singleton hsingle]
    | cons q ps =>
      rw [List.intercalate_cons_cons, List.append_assoc]
      exact (pieces_append hsingle hstop _).trans
        (congrArg (p :: ·) (ih (List.cons_ne_nil q ps) hps))

/-! ### Variables -/

theorem IsPath.variableOf_join {names : List String} (h : IsPath names) :
    variableOf (Text.join "." names) = marker ++ Text.join "__" (names.map Text.upper) := by
  rw [variableOf, h.splitOn_join]

theorem IsPath.lower_variableOf {names : List String} (h : IsPath names) :
    Text.lower (variableOf (Text.join "." names)) = Text.lower marker ++ Text.join "__" names := by
  -- all parts are of ASCII, so they are put into lower case one by one
  have hmarker : Text.IsAscii marker := by decide
  have hseparator : Text.IsAscii "__" := by decide
  have hnames : ∀ n ∈ names.map Text.upper, Text.IsAscii n := by
    intro n hn
    obtain ⟨m, hm, rfl⟩ := List.mem_map.mp hn
    exact (h.2 m hm).isAscii_upper
  have hlower : (names.map Text.upper).map Text.lowerAscii = names := by
    rw [List.map_map]
    exact (List.map_congr_left fun n hn => (h.2 n hn).lowerAscii_upper).trans (List.map_id names)
  rw [h.variableOf_join, (hmarker.append (hseparator.join hnames)).lower_eq, Text.lowerAscii_append,
    Text.lowerAscii_join, hlower, hmarker.lower_eq]
  rfl

/-- **The names of a path** are read off its variable. -/
theorem segments?_variableOf {names : List String} (h : IsPath names) :
    segments? (variableOf (Text.join "." names)) = some names := by
  -- behind the marker stand the names in lower case again, and these are cut apart
  have hpieces : pieces (Text.join "__" names).toList = names.map String.toList := by
    rw [Text.join, String.toList_intercalate]
    refine pieces_intercalate (List.map_eq_nil_iff.not.mpr h.1) fun p hp => ?_
    obtain ⟨n, hn, rfl⟩ := List.mem_map.mp hp
    exact ⟨(h.2 n hn).single, (h.2 n hn).stop⟩
  rw [segments?, h.lower_variableOf, Text.after?_append, Option.map_some, hpieces, List.map_map]
  exact congrArg some (List.map_id'' (fun _ => String.ofList_toList) names)

/-- Different paths have different variables. -/
theorem injOn_variableOf :
    Set.InjOn variableOf {path | ∃ names, IsPath names ∧ path = Text.join "." names} := by
  rintro _ ⟨names, h, rfl⟩ _ ⟨names', h', rfl⟩ heq
  have hsegments := segments?_variableOf h
  rw [heq, segments?_variableOf h'] at hsegments
  rw [Option.some.inj hsegments]

-- Were names to end in underscores, a variable could be that of two paths.
example : variableOf "a_.b" = variableOf "a._b" := by decide +kernel

end Settings

end Parley
