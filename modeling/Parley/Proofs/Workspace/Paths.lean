import Parley.Proofs.Text.Pieces
import Parley.Workspace.Location

/-!
# Locations and their paths

The text of a path names only locations whose names are names (`isName_of_ofPath?`).  The path of
such a location names it again, except that the blanks at the end of its last name are lost: blanks
around a path do not count (`trim_toPath`).  So a location is found again by its path exactly when
trimming leaves the path as it is (`ofPath?_toPath_iff`).
-/

namespace Parley.Workspace

/-- A text can be a name in a path: it stands between two slashes and means a step down. -/
structure IsName (name : String) : Prop where
  ne_empty : name ≠ ""
  ne_point : name ≠ "."
  ne_points : name ≠ ".."
  no_slash : '/' ∉ name.toList

namespace Location

variable {l : Location} {name path : String}

theorem mem_names_iff : name ∈ names path ↔
    name ∈ Text.splitOn '/' (Text.trim path) ∧ name ≠ "" ∧ name ≠ "." := by
  rw [names, List.mem_filter]
  simp

theorem ofPath?_eq_some_iff : ofPath? path = some l ↔ names path = l ∧ ".." ∉ l := by
  unfold ofPath?
  split
  · next hpoints =>
    constructor
    · intro h
      cases h
    · rintro ⟨rfl, hnot⟩
      exact absurd (List.contains_iff_mem.mp hpoints) hnot
  · next hpoints =>
    rw [Option.some_inj]
    constructor
    · rintro rfl
      exact ⟨rfl, fun hmem => hpoints (List.contains_iff_mem.mpr hmem)⟩
    · exact fun h => h.1

theorem isName_of_ofPath? (h : ofPath? path = some l) : ∀ n ∈ l, IsName n := by
  intro n hn
  obtain ⟨rfl, hpoints⟩ := ofPath?_eq_some_iff.mp h
  obtain ⟨hpiece, hempty, hpoint⟩ := mem_names_iff.mp hn
  have hslash : '/' ∉ n.toList := by
    rw [Text.splitOn_eq, List.mem_map] at hpiece
    obtain ⟨piece, hpiece, rfl⟩ := hpiece
    rw [String.toList_ofList]
    exact Text.not_mem_of_mem_splitOn hpiece
  exact ⟨hempty, hpoint, fun heq => hpoints (heq ▸ hn), hslash⟩

/-! ### The path of a location -/

theorem toPath_eq_intercalate (hl : l ≠ []) : toPath l = "/".intercalate ("" :: l) := by
  rw [toPath, Text.join, String.intercalate_cons_of_ne_nil hl, String.empty_append]

theorem toPath_concat (l : Location) (name : String) :
    toPath (l ++ [name]) = "/".intercalate ("" :: l) ++ "/" ++ name := by
  rw [toPath_eq_intercalate (by simp), ← List.cons_append,
    String.intercalate_append_of_ne_nil (by simp) (by simp), String.intercalate_singleton]

/-- What trimming takes from the path of a location are the blanks at its end. -/
theorem trim_toPath (l : Location) (name : String) :
    Text.trim (toPath (l ++ [name])) = toPath (l ++ [Text.trimEnd name]) := by
  have hslash : Text.isBlank '/' = false := by decide
  have hstart : (toPath (l ++ [name])).toList.dropWhile Text.isBlank =
      (toPath (l ++ [name])).toList := by
    rw [toPath, String.toList_append]
    exact List.dropWhile_cons_of_neg (Bool.eq_false_iff.mp hslash)
  rw [String.ext_iff, Text.toList_trim, hstart, toPath_concat, toPath_concat]
  simp only [String.toList_append, Text.toList_trimEnd, List.append_assoc]
  exact Text.dropEndWhile_append_cons hslash _ _

/-- The names between the slashes of the path of a location are its names. -/
theorem splitOn_toPath (hl : l ≠ []) (hslash : ∀ n ∈ l, '/' ∉ n.toList) :
    Text.splitOn '/' (toPath l) = "" :: l := by
  have hno : ∀ cs ∈ ("" :: l).map String.toList, '/' ∉ cs := by
    simpa using hslash
  rw [Text.splitOn_eq, toPath_eq_intercalate hl, String.toList_intercalate]
  exact (congrArg (List.map String.ofList) (List.splitOn_intercalate '/' hno (by simp))).trans
    (by simp)

theorem names_toPath (hl : ∀ n ∈ l, IsName n) (hslash : '/' ∉ name.toList) :
    names (toPath (l ++ [name])) = l ++ [Text.trimEnd name].filter fun n =>
      !n.isEmpty && n != "." := by
  have hend : '/' ∉ (Text.trimEnd name).toList := fun hmem => hslash (Text.mem_of_mem_trimEnd hmem)
  have hno : ∀ n ∈ l ++ [Text.trimEnd name], '/' ∉ n.toList := by
    rw [List.forall_mem_append]
    exact ⟨fun n hn => (hl n hn).no_slash, List.forall_mem_singleton.mpr hend⟩
  have hkept : ∀ n ∈ l, (!n.isEmpty && n != ".") = true :=
    fun n hn => by simp [(hl n hn).ne_empty, (hl n hn).ne_point]
  rw [names, trim_toPath, splitOn_toPath (by simp) hno, List.filter_cons_of_neg (by simp),
    List.filter_append, List.filter_eq_self.mpr hkept]

theorem ofPath?_toPath_concat_iff (hl : ∀ n ∈ l, IsName n) (hname : IsName name) :
    ofPath? (toPath (l ++ [name])) = some (l ++ [name]) ↔ Text.trimEnd name = name := by
  rw [ofPath?_eq_some_iff, names_toPath hl hname.no_slash]
  constructor
  · rintro ⟨hnames, -⟩
    have hlast : name ∈ [Text.trimEnd name].filter fun n => !n.isEmpty && n != "." := by
      rw [List.append_cancel_left hnames]
      exact List.mem_singleton_self name
    exact (List.mem_singleton.mp (List.mem_filter.mp hlast).1).symm
  · intro hblank
    rw [hblank, List.filter_cons_of_pos (by simp [hname.ne_empty, hname.ne_point]), List.filter_nil]
    refine ⟨rfl, fun hpoints => ?_⟩
    obtain hpoints | hpoints := List.mem_append.mp hpoints
    · exact (hl _ hpoints).ne_points rfl
    · exact hname.ne_points (List.mem_singleton.mp hpoints).symm

theorem toPath_concat_inj {a b : String} : toPath (l ++ [a]) = toPath (l ++ [b]) ↔ a = b := by
  simp only [toPath_concat, String.ext_iff, String.toList_append, List.append_right_inj]

/-- **A location is found by its path** exactly when trimming leaves the path as it is. -/
theorem ofPath?_toPath_iff (hne : l ≠ []) (hl : ∀ n ∈ l, IsName n) :
    ofPath? (toPath l) = some l ↔ Text.trim (toPath l) = toPath l := by
  cases l using List.reverseRecOn with
  | nil => exact absurd rfl hne
  | append_singleton l name =>
    obtain ⟨hl, hname⟩ := List.forall_mem_append.mp hl
    rw [ofPath?_toPath_concat_iff hl (List.forall_mem_singleton.mp hname), trim_toPath,
      toPath_concat_inj]

end Location

end Parley.Workspace
