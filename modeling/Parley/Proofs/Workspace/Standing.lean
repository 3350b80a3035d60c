import Parley.Proofs.Workspace.Orderly

/-!
# Workspaces that stand on a disk

All locations of a workspace are below the place of its root (`Mount.StandsAt`), which may have any
path (`Mount.rooted`), and there the workspace stands on the disk.  Then an operation answers what
it answers on the workspace alone (`Mount.alone`), and the workspace that it leaves behind is the
one that it leaves there (`Mount.shadows_run`).  So it reads nothing else on the disk.

The two runs are related step by step.  `Tracks` and `Shadows` say that the answers are the same and
that the disk of the one has the tree of the other at a place.  This holds when directories are made
(`Tree.shadows_makeDirs`) and when an entry is changed (`Tree.tracks_modify`), by induction on the
way to the root, and so for all that is made of these steps.
-/

namespace Parley.Workspace

open Chat (ToolError)

variable {ε α : Type} {h h' t t' : Tree} {base l k s d : Location} {path : String}

/-! ### Two runs -/

/-- Two steps have the same answer, and the disk of one has the tree of the other at a place. -/
structure Shadows (base : Location) (x y : Except ε α × Tree) : Prop where
  answer : x.1 = y.1
  root : x.2.walk base = .ok y.2

/-- Two steps are refused for the same reason, or succeed both, and the disk of one has the tree of
the other at a place. -/
inductive Tracks (base : Location) : Except ε Tree → Except ε Tree → Prop where
  | error (e : ε) : Tracks base (.error e) (.error e)
  | ok {h t : Tree} (hroot : h.walk base = .ok t) : Tracks base (.ok h) (.ok t)

theorem Tracks.bind {x y : Except ε Tree} {f g : Tree → Except ε Tree} (hxy : Tracks base x y)
    (hstep : ∀ h t, h.walk base = .ok t → Tracks base (f h) (g t)) :
    Tracks base (x >>= f) (y >>= g) := by
  cases hxy with
  | error e => exact .error e
  | ok hroot => exact hstep _ _ hroot

/-- What comes first may be refused, but in both runs. -/
theorem Tracks.after (x : Except ε α) {f g : α → Except ε Tree}
    (hstep : ∀ a, Tracks base (f a) (g a)) :
    Tracks base (x >>= f) (x >>= g) := by
  cases x with
  | error e => exact .error e
  | ok a => exact hstep a

theorem Tracks.map {x y : Except ε Tree} {f : Tree → Tree} {place : Location}
    (hxy : Tracks base x y) (hf : ∀ h t, h.walk base = .ok t → (f h).walk place = .ok t) :
    Tracks place (x.map f) y := by
  cases hxy with
  | error e => exact .error e
  | ok hroot => exact .ok (hf _ _ hroot)

theorem Tracks.refused {x y : Except SystemError Tree} (hxy : Tracks base x y) (path : String) :
    Tracks base (refused path x) (refused path y) := by
  cases hxy with
  | error e => exact .error _
  | ok hroot => exact .ok hroot

theorem Tracks.settled {x y : Except ε Tree} (hxy : Tracks base x y) (hroot : h.walk base = .ok t) :
    Shadows base (settled h x) (settled t y) := by
  cases hxy with
  | error e => exact ⟨rfl, hroot⟩
  | ok hroot => exact ⟨rfl, hroot⟩

theorem shadows_look {x y : Except ToolError α} (report : α → Answer) (hxy : x = y)
    (hroot : h.walk base = .ok t) :
    Shadows base (Operation.look report x h) (Operation.look report y t) :=
  ⟨congrArg (·.map report) hxy, hroot⟩

theorem Shadows.change {x y : Except ToolError Unit × Tree} (hxy : Shadows base x y) :
    Shadows base (Operation.change x) (Operation.change y) :=
  ⟨congrArg (·.map fun _ => Answer.done) hxy.answer, hxy.root⟩

theorem bind_resolve_congr {f g : Location → Except ToolError α}
    (h : ∀ l, (∀ n ∈ l, IsName n) → f l = g l) :
    (resolve path >>= f) = (resolve path >>= g) := by
  cases hpath : resolve path with
  | error e => rfl
  | ok l => exact h l (isName_of_resolve hpath)

/-! ### Trees in a tree -/

namespace Tree

variable {name : String} {es : List (String × Tree)} {child : Tree}

theorem walk_cons (hlong : isTooLong name = false) (hchild : es.lookup name = some child)
    (l : Location) :
    (dir es).walk (name :: l) = child.walk l := by
  rw [walk, hlong, hchild]
  rfl

theorem walk_cons_eq_ok_iff : h.walk (name :: l) = .ok t ↔
    ∃ es child, h = dir es ∧ isTooLong name = false ∧ es.lookup name = some child ∧
    child.walk l = .ok t := by
  constructor
  · intro hwalk
    cases h with
    | file contents => cases hwalk
    | dir es =>
      rw [walk] at hwalk
      split at hwalk
      · cases hwalk
      · next hlong =>
        split at hwalk
        · cases hwalk
        · next child hchild => exact ⟨es, child, rfl, Bool.eq_false_iff.mpr hlong, hchild, hwalk⟩
  · rintro ⟨es, child, rfl, hlong, hchild, hwalk⟩
    rw [walk_cons hlong hchild, hwalk]

theorem walk_setEntry (hlong : isTooLong name = false) (es : List (String × Tree)) (child : Tree)
    (l : Location) :
    (dir (setEntry name (some child) es)).walk (name :: l) = child.walk l := by
  apply walk_cons hlong
  rw [setEntry, Entries.lookup_put, if_pos rfl]

/-- Walking past a place is walking in what is there. -/
theorem walk_append (hroot : h.walk base = .ok t) (l : Location) :
    h.walk (base ++ l) = t.walk l := by
  induction base generalizing h with
  | nil =>
    rw [walk] at hroot
    cases hroot
    rfl
  | cons name base ih =>
    obtain ⟨es, child, rfl, hlong, hchild, hroot⟩ := walk_cons_eq_ok_iff.mp hroot
    rw [List.cons_append, walk_cons hlong hchild, ih hroot]

/-- Directories below a place are made in what is there. -/
theorem shadows_makeDirs (hroot : h.walk base = .ok t) (l : Location) :
    Shadows base (h.makeDirs (base ++ l)) (t.makeDirs l) := by
  induction base generalizing h with
  | nil =>
    rw [walk] at hroot
    cases hroot
    exact ⟨rfl, by rw [walk]; rfl⟩
  | cons name base ih =>
    obtain ⟨es, child, rfl, hlong, hchild, hroot⟩ := walk_cons_eq_ok_iff.mp hroot
    rw [List.cons_append, makeDirs_cons hlong, hchild, Option.getD_some]
    refine ⟨(ih hroot).answer, ?_⟩
    rw [walk_setEntry hlong]
    exact (ih hroot).root

/-- An entry below a place is changed in what is there. -/
theorem tracks_modify {change : Option Tree → Except SystemError (Option Tree)}
    {first name : String} {way rest : Location} (hroot : h.walk base = .ok t)
    (hplace : base ++ name :: rest = first :: way) :
    Tracks base (h.modify change first way) (t.modify change name rest) := by
  induction base generalizing h first way with
  | nil =>
    rw [walk] at hroot
    cases hroot
    cases hplace
    cases t.modify change name rest with
    | error e => exact .error e
    | ok h' => exact .ok (by rw [walk])
  | cons n base ih =>
    obtain ⟨es, child, rfl, hlong, hchild, hroot⟩ := walk_cons_eq_ok_iff.mp hroot
    rw [List.cons_append, List.cons_eq_cons] at hplace
    obtain ⟨rfl, rfl⟩ := hplace
    -- the way does not end at the first name, since the entry is below the place
    obtain ⟨second, way, hway⟩ := List.exists_cons_of_ne_nil (l := base ++ name :: rest) (by simp)
    rw [hway, modify_cons hlong hchild]
    exact (ih hroot hway).map fun h t hroot => by rw [walk_setEntry hlong, hroot]

end Tree

/-! ### Workspaces on a disk -/

/-- The root of the workspace has a path.  The system follows the paths of locations from a working
directory. -/
def Mount.rooted (cwd : Location) (root : String)
    (admits : List Location → Except SystemError Unit) : Mount :=
  ⟨fun l => arrival cwd (below root l), admits⟩

/-- The workspace on a disk of its own, where the same paths are taken. -/
def Mount.alone (m : Mount) : Mount := ⟨id, m.admits⟩

/-- Every location of the workspace is below a place. -/
def Mount.StandsAt (m : Mount) (base : Location) : Prop :=
  ∀ l, (∀ n ∈ l, IsName n) → m.place l = base ++ l

theorem Mount.rooted_standsAt (cwd : Location) (root : String)
    (admits : List Location → Except SystemError Unit) :
    (rooted cwd root admits).StandsAt (arrival cwd root) := fun _ => arrival_below cwd root

namespace Mount

/-! ### What an operation tells -/

@[simp] theorem alone_place (m : Mount) (l : Location) : m.alone.place l = l := rfl

@[simp] theorem alone_admits (m : Mount) (ls : List Location) : m.alone.admits ls = m.admits ls :=
  rfl

section

variable {m : Mount} (hm : m.StandsAt base) (hroot : h.walk base = .ok t)

include hm hroot

theorem inspect_eq (hl : ∀ n ∈ l, IsName n) : Disk.inspect h l m = Disk.inspect t l m.alone := by
  rw [Disk.inspect, Disk.inspect, hm l hl, Tree.walk_append hroot, alone_admits, alone_place]

theorem list_eq (hl : ∀ n ∈ l, IsName n) : Disk.list h l m = Disk.list t l m.alone := by
  rw [Disk.list, Disk.list, inspect_eq hm hroot hl]

theorem shadows_makeDirs (hl : ∀ n ∈ l, IsName n) :
    Shadows base (Disk.makeDirs h l m) (Disk.makeDirs t l m.alone) := by
  rw [Disk.makeDirs, Disk.makeDirs, hm l hl, alone_admits, alone_place]
  cases m.admits [l] with
  | error e => exact ⟨rfl, hroot⟩
  | ok _ => exact Tree.shadows_makeDirs hroot l

theorem tracks_modify (change : Option Tree → Except SystemError (Option Tree))
    (hl : ∀ n ∈ l, IsName n) (hne : l ≠ []) :
    Tracks base (Disk.modify change h l m) (Disk.modify change t l m.alone) := by
  obtain ⟨name, rest, rfl⟩ := List.exists_cons_of_ne_nil hne
  obtain ⟨first, way, hplace⟩ := List.exists_cons_of_ne_nil (l := base ++ name :: rest) (by simp)
  rw [Disk.modify, Disk.modify, hm _ hl, hplace, alone_admits, alone_place]
  exact .after _ fun _ => Tree.tracks_modify hroot hplace

theorem walkToParent_eq (hl : ∀ n ∈ l, IsName n) (hne : l ≠ []) :
    Disk.walkToParent h l m = Disk.walkToParent t l m.alone := by
  rw [Disk.walkToParent, Disk.walkToParent, hm l hl, List.dropLast_append_of_ne_nil hne,
    Tree.walk_append hroot, alone_place]

/-- Whether a target has too long a name or is inside the source is seen below the root. -/
theorem tracks_rename (hs : ∀ n ∈ s, IsName n) (hd : ∀ n ∈ d, IsName n) (hsource : s ≠ [])
    (htarget : d ≠ []) :
    Tracks base (Disk.rename h s d m) (Disk.rename t s d m.alone) := by
  have hlast : (base ++ d).getLast? = d.getLast? := List.getLast?_append_of_ne_nil base htarget
  have hinside : (base ++ s).isPrefixOf (base ++ d) = s.isPrefixOf d := by
    rw [Bool.eq_iff_iff, List.isPrefixOf_iff_prefix, List.isPrefixOf_iff_prefix,
      List.prefix_append_right_inj]
  rw [Disk.rename, Disk.rename, walkToParent_eq hm hroot hs hsource,
    walkToParent_eq hm hroot hd htarget, hm s hs, hm d hd, Tree.walk_append hroot, hlast, hinside,
    alone_place m s, alone_place m d]
  -- both runs ask for the same paths, walk to the same parents and take the same tree
  refine .after _ fun _ => .after _ fun _ => .after _ fun _ => .after _ fun moved => ?_
  split_ifs
  · exact .error _
  · exact .error _
  · refine (tracks_modify hm hroot _ hs hsource).bind fun h t hroot => ?_
    exact tracks_modify hm hroot _ hd htarget

theorem listEntries_eq (path : String) : listEntries h path m = listEntries t path m.alone := by
  refine bind_resolve_congr fun l hl => ?_
  rw [list_eq hm hroot hl]

theorem readText_eq (path : String) : readText h path m = readText t path m.alone := by
  refine bind_resolve_congr fun l hl => ?_
  rw [inspect_eq hm hroot hl]

theorem search_eq (query path : String) : search h query path m = search t query path m.alone := by
  unfold search
  dsimp only
  split
  · rfl
  · refine bind_resolve_congr fun l hl => ?_
    rw [inspect_eq hm hroot hl]
    rfl

theorem shadows_withParents {f g : Tree → Except ToolError Tree} (path : String)
    (hl : ∀ n ∈ l, IsName n) (hstep : ∀ h t, h.walk base = .ok t → Tracks base (f h) (g t)) :
    Shadows base (withParents path h l f m) (withParents path t l g m.alone) := by
  have hway : ∀ n ∈ l.dropLast, IsName n := fun n hn => hl n (List.mem_of_mem_dropLast hn)
  have hmade := shadows_makeDirs hm hroot hway
  rw [withParents, withParents]
  generalize Disk.makeDirs h l.dropLast m = x at hmade
  generalize Disk.makeDirs t l.dropLast m.alone = y at hmade
  obtain ⟨answer, h₁⟩ := x
  obtain ⟨_, t₁⟩ := y
  obtain ⟨rfl, hroot⟩ := hmade
  cases answer with
  | error e => exact ⟨rfl, hroot⟩
  | ok _ =>
    exact (hstep h₁ t₁ hroot).settled hroot

theorem shadows_writeText (path text : String) :
    Shadows base (writeText h path text m) (writeText t path text m.alone) := by
  rw [writeText, writeText]
  rcases hpath : resolve path with e | _ | ⟨name, rest⟩
  · exact ⟨rfl, hroot⟩
  · exact ⟨rfl, hroot⟩
  · have hl := isName_of_resolve hpath
    exact shadows_withParents hm hroot path hl fun h t hroot =>
      (tracks_modify hm hroot _ hl (by simp)).refused path

theorem shadows_movePath (source target : String) :
    Shadows base (movePath h source target m) (movePath t source target m.alone) := by
  rw [movePath, movePath]
  rcases hsource : resolve source with e | s
  · exact ⟨rfl, hroot⟩
  · rcases htarget : resolve target with e | d
    · exact ⟨rfl, hroot⟩
    · have hs := isName_of_resolve hsource
      have hd := isName_of_resolve htarget
      dsimp only
      rw [inspect_eq hm hroot hd]
      split_ifs with hempty hexists
      · exact ⟨rfl, hroot⟩
      · exact ⟨rfl, hroot⟩
      · rw [Bool.or_eq_true, List.isEmpty_iff, List.isEmpty_iff, not_or] at hempty
        exact shadows_withParents hm hroot target hd fun h t hroot =>
          (tracks_rename hm hroot hs hd hempty.1 hempty.2).refused source

theorem shadows_delete (path : String) :
    Shadows base (delete h path m) (delete t path m.alone) := by
  rw [delete, delete]
  rcases hpath : resolve path with e | _ | ⟨name, rest⟩
  · exact ⟨rfl, hroot⟩
  · exact ⟨rfl, hroot⟩
  · exact ((tracks_modify hm hroot _ (isName_of_resolve hpath) (by simp)).refused path).settled
      hroot

/-- **Nothing else is read.**  Where the workspace stands on the disk, an operation gives the answer
and leaves the workspace that it does on the workspace alone. -/
theorem shadows_run (op : Operation) : Shadows base (op.run m h) (op.run m.alone t) := by
  cases op with
  | list path => exact shadows_look .entries (listEntries_eq hm hroot path) hroot
  | read path => exact shadows_look .text (readText_eq hm hroot path) hroot
  | search query path => exact shadows_look .hits (search_eq hm hroot query path) hroot
  | write path text => exact (shadows_writeText hm hroot path text).change
  | move source target => exact (shadows_movePath hm hroot source target).change
  | delete path => exact (shadows_delete hm hroot path).change

end

end Mount

end Parley.Workspace
