import Mathlib.Data.List.Basic
import Parley.Proofs.Workspace.Paths
import Parley.Workspace.Store

/-!
# Where the path of a file leads

The store hands to the system the path of its root with the names of a location put behind it, one
after the other (`below`).  The system follows a path from the working directory, or from the top if
it begins with a slash, piece by piece: two points lead up (`arrival`).

* `resolve_error_iff`, `resolve_of_no_points`: a path is refused when one of its pieces is two
  points, and otherwise names a location by its other pieces.
* `arrival_below`: whatever the path of the root, the system arrives below the place of the root, by
  the names of the location.
-/

namespace Parley.Workspace

open Chat (ToolError)

variable {l : Location} {path name : String}

/-! ### What a path names -/

/-- The pieces of a path between its slashes, blanks around it not counted. -/
def pieces (path : String) : List String := Text.splitOn '/' (Text.trim path)

theorem mem_points_iff : ".." ∈ Location.names path ↔ ".." ∈ pieces path := by
  rw [Location.mem_names_iff]
  exact and_iff_left ⟨by decide, by decide⟩

theorem resolve_of_no_points (h : ".." ∉ pieces path) :
    resolve path = .ok ((pieces path).filter fun piece => piece ≠ "" ∧ piece ≠ ".") := by
  have hnames : Location.names path = (pieces path).filter fun piece => piece ≠ "" ∧
      piece ≠ "." := by
    rw [Location.names, pieces]
    apply List.filter_congr
    intro piece _
    rw [Bool.eq_iff_iff]
    simp
  have hlocation : Location.ofPath? path = some (Location.names path) :=
    Location.ofPath?_eq_some_iff.mpr ⟨rfl, fun hpoints => h (mem_points_iff.mp hpoints)⟩
  rw [resolve, hlocation, hnames]

theorem resolve_of_points (h : ".." ∈ pieces path) :
    resolve path = .error (.invalidParameters ("Path '" ++ path ++ "' escapes the workspace")) := by
  have hnone : Location.ofPath? path = none :=
    if_pos (List.contains_iff_mem.mpr (mem_points_iff.mpr h))
  rw [resolve, hnone]

/-- **Refused paths** are those with two points between slashes. -/
theorem resolve_error_iff : (∃ e, resolve path = .error e) ↔ ".." ∈ pieces path := by
  constructor
  · rintro ⟨e, he⟩
    by_contra h
    rw [resolve_of_no_points h] at he
    cases he
  · intro h
    exact ⟨_, resolve_of_points h⟩

/-- Paths with the same pieces, empty ones and single points left out, name the same location. -/
theorem toOption_resolve_congr {p q : String}
    (h : ((pieces p).filter fun piece => piece ≠ "" ∧ piece ≠ ".") =
      (pieces q).filter fun piece => piece ≠ "" ∧ piece ≠ ".") :
    (resolve p).toOption = (resolve q).toOption := by
  have hpoints (path : String) :
      ".." ∈ pieces path ↔ ".." ∈ (pieces path).filter fun piece => piece ≠ "" ∧ piece ≠ "." := by
    rw [List.mem_filter]
    exact (and_iff_left (by decide)).symm
  by_cases hp : ".." ∈ pieces p
  · have hq : ".." ∈ pieces q := by rwa [hpoints, ← h, ← hpoints]
    rw [resolve_of_points hp, resolve_of_points hq]
    rfl
  · have hq : ".." ∉ pieces q := by rwa [hpoints, ← h, ← hpoints]
    rw [resolve_of_no_points hp, resolve_of_no_points hq, h]

/-! ### Paths on the disk -/

/-- The path with a name put behind it.  A slash goes in between unless there is one or the path is
empty. -/
def descend (path name : String) : String :=
  if path.toList.getLast? = none ∨ path.toList.getLast? = some '/' then path ++ name
    else path ++ "/" ++ name

/-- The path of a location in the workspace with this root. -/
def below (root : String) (l : Location) : String := l.foldl descend root

/-- Where one piece of a path leads.  Two points lead up; what they stand behind is taken to be
there. -/
def follow (place : Location) (piece : String) : Location :=
  if piece = "" ∨ piece = "." then place else if piece = ".." then place.dropLast
    else place ++ [piece]

/-- Where the system begins to follow a path. -/
def origin (cwd : Location) (path : List Char) : Location :=
  if path.head? = some '/' then [] else cwd

/-- Where a path leads from a working directory, links aside. -/
def arrival (cwd : Location) (path : String) : Location :=
  (Text.splitOn '/' path).foldl follow (origin cwd path.toList)

theorem follow_of_isName (h : IsName name) (place : Location) :
    follow place name = place ++ [name] := by
  rw [follow, if_neg (not_or.mpr ⟨h.ne_empty, h.ne_point⟩), if_neg h.ne_points]

theorem splitOn_slash (cs : List Char) (hslash : '/' ∉ name.toList) :
    Text.splitOn '/' (String.ofList (cs ++ '/' :: name.toList)) =
      Text.splitOn '/' (String.ofList cs) ++ [name] := by
  rw [Text.splitOn_eq, Text.splitOn_eq, String.toList_ofList, String.toList_ofList,
    List.splitOn_append_cons_self, List.splitOn_eq_singleton hslash, List.map_append]
  simp

theorem origin_append {cs : List Char} (hne : cs ≠ []) (cwd : Location) (ds : List Char) :
    origin cwd (cs ++ ds) = origin cwd cs := by
  cases cs with
  | nil => exact absurd rfl hne
  | cons c cs => rfl

/-- **One step down.**  A name put behind a path leads to its entry in the place where the path
leads. -/
theorem arrival_descend (cwd : Location) (path : String) (h : IsName name) :
    arrival cwd (descend path name) = arrival cwd path ++ [name] := by
  have hlast : ∀ cs : List Char, arrival cwd (String.ofList (cs ++ '/' :: name.toList)) =
      (Text.splitOn '/' (String.ofList cs)).foldl follow (origin cwd (cs ++ '/' :: name.toList)) ++
        [name] := by
    intro cs
    rw [arrival, splitOn_slash cs h.no_slash, List.foldl_append, List.foldl_cons, List.foldl_nil,
      follow_of_isName h, String.toList_ofList]
  obtain hempty | ⟨cs, c, hpath⟩ := List.eq_nil_or_concat' path.toList
  · -- a name alone leads down from the working directory
    have hpath : path = "" := String.toList_inj.mp hempty
    have horigin : origin cwd name.toList = cwd := by
      rw [origin, if_neg]
      intro hhead
      exact h.no_slash (List.mem_of_mem_head? hhead)
    have hname : arrival cwd name = cwd ++ [name] := by
      rw [arrival, horigin, Text.splitOn_eq, List.splitOn_eq_singleton h.no_slash,
        List.map_singleton, String.ofList_toList, List.foldl_cons, List.foldl_nil,
        follow_of_isName h]
    subst hpath
    rw [descend, if_pos (Or.inl (by simp)), String.empty_append, hname]
    rfl
  · have hnonempty : path.toList ≠ [] := by simp [hpath]
    by_cases hslash : c = '/'
    · -- the slash at the end stays without effect
      subst hslash
      have hdescend : descend path name = String.ofList (cs ++ '/' :: name.toList) := by
        rw [descend, if_pos (Or.inr (by simp [hpath]))]
        apply String.toList_inj.mp
        rw [String.toList_append, hpath, String.toList_ofList, List.append_assoc]
        rfl
      have hsplit : Text.splitOn '/' path = Text.splitOn '/' (String.ofList cs) ++ [""] := by
        have hpath : path = String.ofList (cs ++ '/' :: "".toList) := by
          apply String.toList_inj.mp
          rw [hpath, String.toList_ofList]
          rfl
        rw [hpath, splitOn_slash cs (by simp)]
      have horigin : origin cwd (cs ++ '/' :: name.toList) = origin cwd path.toList := by
        have hsame : cs ++ '/' :: name.toList = path.toList ++ name.toList := by rw [hpath]; simp
        rw [hsame, origin_append hnonempty]
      rw [hdescend, hlast, horigin, arrival, hsplit, List.foldl_append]
      rfl
    · have hdescend : descend path name = String.ofList (path.toList ++ '/' :: name.toList) := by
        have hend : ¬ (path.toList.getLast? = none ∨ path.toList.getLast? = some '/') := by
          simp [hpath, hslash]
        rw [descend, if_neg hend]
        apply String.toList_inj.mp
        simp [String.toList_append]
      rw [hdescend, hlast, origin_append hnonempty, String.ofList_toList, arrival]

/-- **Paths stay below the root.**  The path of a location leads from the place of the root down by
its names. -/
theorem arrival_below (cwd : Location) (root : String) (hl : ∀ n ∈ l, IsName n) :
    arrival cwd (below root l) = arrival cwd root ++ l := by
  induction l generalizing root with
  | nil => rw [List.append_nil]; rfl
  | cons name l ih =>
    obtain ⟨hname, hl⟩ := List.forall_mem_cons.mp hl
    have hstep : below root (name :: l) = below (descend root name) l := rfl
    rw [hstep, ih _ hl, arrival_descend cwd root hname, List.append_assoc]
    rfl

end Parley.Workspace
