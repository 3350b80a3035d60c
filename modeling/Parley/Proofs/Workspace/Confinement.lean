import Parley.Proofs.Workspace.Standing

/-!
# No path leaves the workspace

The workspace is below the place of a disk where the path of its root leads.  No path of an
operation leads to any other place (`paths_confined`): a path with two points as a name is refused,
and each other one leads down from the root by its names.

What an operation leaves alone is said by `Keeps`: each item that is not below the root, and the
root itself.  Only when the directories on the way to the root are missing, they are made.  It holds
of the steps that change the disk (`Mount.keeps_makeDirs`, `Mount.keeps_modify`), and so of every
operation (`Mount.keeps_run`).
-/

namespace Parley.Workspace

open Chat (ToolError)

variable {h h' h'' t : Tree} {base l k s d : Location} {path : String} {m : Mount}

/-! ### What is left alone -/

/-- The items that are not below a place are what they were, but that directories may be where
nothing was on the way to it. -/
def Keeps (base : Location) (h h' : Tree) : Prop :=
  ∀ k, ¬ base.IsAbove k → h'.item? k = h.item? k ∨ k <+: base ∧ h.item? k = none ∧
    h'.item? k = some .dir

theorem keeps_refl (base : Location) (h : Tree) : Keeps base h h := fun _ _ => .inl rfl

/-- A directory that one step makes is left alone by the next one. -/
theorem Keeps.trans (hfirst : Keeps base h h') (hsecond : Keeps base h' h'') :
    Keeps base h h'' := by
  intro k hk
  obtain hsame | ⟨hway, hnone, hdir⟩ := hsecond k hk
  · rw [hsame]
    exact hfirst k hk
  · obtain hsame | ⟨-, -, hdir'⟩ := hfirst k hk
    · exact .inr ⟨hway, hsame ▸ hnone, hdir⟩
    · rw [hnone] at hdir'
      cases hdir'

/-- Where there is something already, nothing at all changes that is not below. -/
theorem Keeps.item?_eq (hkeeps : Keeps base h h') (hroot : h.walk base = .ok t)
    (hk : ¬ base.IsAbove k) :
    h'.item? k = h.item? k := by
  refine (hkeeps k hk).resolve_right ?_
  rintro ⟨⟨r, rfl⟩, hnone, -⟩
  have hat : h.at? (k ++ r) = some t := (Tree.walk_eq_ok_iff.mp hroot).1
  rw [Tree.at?_append, Tree.item?_eq_none_iff.mp hnone] at hat
  cases hat

namespace Mount

theorem keeps_makeDirs (hm : m.StandsAt base) (hl : ∀ n ∈ l, IsName n) (h : Tree) :
    Keeps base h (Disk.makeDirs h l m).2 := by
  rw [Disk.makeDirs, hm l hl]
  cases m.admits [l] with
  | error e => exact keeps_refl base h
  | ok _ =>
    intro k hk
    obtain hsame | ⟨hway, hmade⟩ := h.item?_makeDirs (base ++ l) k
    · exact .inl hsame
    · -- what is on the way and not below the root is on the way to the root
      refine .inr ⟨?_, hmade⟩
      obtain habove | hbelow := List.prefix_or_prefix_of_prefix hway (List.prefix_append base l)
      · exact habove
      · have heq : base = k := by
          by_contra hne
          exact hk ⟨hbelow, hne⟩
        rw [heq]

theorem keeps_modify {change : Option Tree → Except SystemError (Option Tree)}
    (hm : m.StandsAt base) (hl : ∀ n ∈ l, IsName n) (hne : l ≠ [])
    (hmodify : Disk.modify change h l m = .ok h') : Keeps base h h' := by
  obtain ⟨first, way, hplace⟩ :=
    List.exists_cons_of_ne_nil (List.append_ne_nil_of_right_ne_nil base hne)
  rw [Disk.modify, hm l hl, hplace] at hmodify
  obtain ⟨_, -, hmodify⟩ := bind_eq_ok_iff.mp hmodify
  obtain ⟨_, -, hreplaced, -⟩ := Tree.replaced_of_modify hmodify
  rw [← hplace] at hreplaced
  -- only what is at and below the entry changes, and the entry is below the root
  refine fun k hk =>
    .inl (hreplaced.elsewhere k fun hbelow => hk ⟨(List.prefix_append base l).trans hbelow, ?_⟩)
  rintro rfl
  have hlength := hbelow.length_le
  rw [List.length_append] at hlength
  exact hne (List.eq_nil_of_length_eq_zero (by omega))

theorem keeps_rename (hm : m.StandsAt base) (hs : ∀ n ∈ s, IsName n) (hd : ∀ n ∈ d, IsName n)
    (hsource : s ≠ []) (htarget : d ≠ []) (hrename : Disk.rename h s d m = .ok h') :
    Keeps base h h' := by
  unfold Disk.rename at hrename
  simp only [bind_eq_ok_iff] at hrename
  obtain ⟨_, -, _, -, _, -, moved, -, hrename⟩ := hrename
  split_ifs at hrename
  obtain ⟨h₁, hremove, hmodify⟩ := bind_eq_ok_iff.mp hrename
  exact (keeps_modify hm hs hsource hremove).trans (keeps_modify hm hd htarget hmodify)

theorem keeps_settled {ε : Type} {x : Except ε Tree} (hx : ∀ h', x = .ok h' → Keeps base h h') :
    Keeps base h (settled h x).2 := by
  cases x with
  | error e => exact keeps_refl base h
  | ok h' => exact hx h' rfl

theorem keeps_withParents {step : Tree → Except ToolError Tree} (hm : m.StandsAt base)
    (hl : ∀ n ∈ l, IsName n) (hstep : ∀ h h', step h = .ok h' → Keeps base h h') (h : Tree) :
    Keeps base h (withParents path h l step m).2 := by
  have hmade : Keeps base h (Disk.makeDirs h l.dropLast m).2 :=
    keeps_makeDirs hm (fun n hn => hl n (List.mem_of_mem_dropLast hn)) h
  rw [withParents]
  generalize Disk.makeDirs h l.dropLast m = made at hmade
  rcases made with ⟨e | _, h₁⟩
  · exact hmade
  · exact hmade.trans (keeps_settled (hstep h₁))

theorem keeps_writeText (hm : m.StandsAt base) (h : Tree) (path text : String) :
    Keeps base h (writeText h path text m).2 := by
  rw [writeText]
  rcases hpath : resolve path with e | _ | ⟨name, rest⟩
  · exact keeps_refl base h
  · exact keeps_refl base h
  · have hl := isName_of_resolve hpath
    refine keeps_withParents hm hl (fun h h' hwrite => ?_) h
    exact keeps_modify hm hl (by simp) (refused_eq_ok_iff.mp hwrite)

theorem keeps_movePath (hm : m.StandsAt base) (h : Tree) (source target : String) :
    Keeps base h (movePath h source target m).2 := by
  rw [movePath]
  rcases hsource : resolve source with e | s
  · exact keeps_refl base h
  · rcases htarget : resolve target with e | d
    · exact keeps_refl base h
    · dsimp only
      split_ifs with hempty hexists
      · exact keeps_refl base h
      · exact keeps_refl base h
      · rw [Bool.or_eq_true, List.isEmpty_iff, List.isEmpty_iff, not_or] at hempty
        have hd := isName_of_resolve htarget
        refine keeps_withParents hm hd (fun h h' hrename => ?_) h
        exact keeps_rename hm (isName_of_resolve hsource) hd hempty.1 hempty.2
          (refused_eq_ok_iff.mp hrename)

theorem keeps_delete (hm : m.StandsAt base) (h : Tree) (path : String) :
    Keeps base h (delete h path m).2 := by
  rw [delete]
  rcases hpath : resolve path with e | _ | ⟨name, rest⟩
  · exact keeps_refl base h
  · exact keeps_refl base h
  · refine keeps_settled fun h' hremove => ?_
    exact keeps_modify hm (isName_of_resolve hpath) (by simp) (refused_eq_ok_iff.mp hremove)

/-- **Nothing else is changed.**  An operation leaves alone all that is not below the root. -/
theorem keeps_run (hm : m.StandsAt base) (op : Operation) (h : Tree) :
    Keeps base h (op.run m h).2 := by
  cases op with
  | list path => exact keeps_refl base h
  | read path => exact keeps_refl base h
  | search query path => exact keeps_refl base h
  | write path text =>
    rw [Operation.run, Operation.change_snd]; exact keeps_writeText hm h path text
  | move source target =>
    rw [Operation.run, Operation.change_snd]; exact keeps_movePath hm h source target
  | delete path => rw [Operation.run, Operation.change_snd]; exact keeps_delete hm h path

end Mount

/-! ### What is refused -/

/-- The paths that an operation is given. -/
def Operation.paths : Operation → List String
  | list path | read path | search _ path | write path _ | delete path => [path]
  | move source target => [source, target]

/-- The paths at which an operation changes the workspace. -/
def Operation.altered : Operation → List String
  | list _ | read _ | search _ _ => []
  | write path _ | delete path => [path]
  | move source target => [source, target]

theorem resolve_cases (path : String) :
    (∃ e, resolve path = .error (.invalidParameters e)) ∨ ∃ l, resolve path = .ok l := by
  by_cases hpoints : ".." ∈ pieces path
  · exact .inl ⟨_, resolve_of_points hpoints⟩
  · exact .inr ⟨_, resolve_of_no_points hpoints⟩

variable {op : Operation}

/-- A change is refused when one of its paths leads to the root or nowhere. -/
theorem run_of_refused (m : Mount) (h : Tree) (hpath : path ∈ op.altered)
    (hrefused : (∃ e, resolve path = .error e) ∨ resolve path = .ok []) :
    ∃ e, op.run m h = (.error (.invalidParameters e), h) := by
  cases op with
  | list path' => cases hpath
  | read path' => cases hpath
  | search query path' => cases hpath
  | write path' text =>
    obtain rfl := List.mem_singleton.mp hpath
    obtain ⟨e, hresolve⟩ | ⟨l, hresolve⟩ := resolve_cases path
    · exact ⟨e, by rw [Operation.run, writeText, hresolve]; rfl⟩
    · obtain rfl : l = [] := by simpa [hresolve] using hrefused
      exact ⟨_, by rw [Operation.run, writeText, hresolve]; rfl⟩
  | move source target =>
    obtain ⟨e, hsource⟩ | ⟨s, hsource⟩ := resolve_cases source
    · exact ⟨e, by rw [Operation.run, movePath, hsource]; rfl⟩
    · obtain ⟨e, htarget⟩ | ⟨d, htarget⟩ := resolve_cases target
      · exact ⟨e, by rw [Operation.run, movePath, hsource, htarget]; rfl⟩
      · have hempty : (s.isEmpty || d.isEmpty) = true := by
          rw [Bool.or_eq_true, List.isEmpty_iff, List.isEmpty_iff]
          obtain rfl | rfl : path = source ∨ path = target := by
            simpa [Operation.altered] using hpath
          · exact .inl (by simpa [hsource] using hrefused)
          · exact .inr (by simpa [htarget] using hrefused)
        refine ⟨"The workspace root cannot be moved", ?_⟩
        rw [Operation.run, movePath, hsource, htarget]
        dsimp only
        rw [if_pos hempty]
        rfl
  | delete path' =>
    obtain rfl := List.mem_singleton.mp hpath
    obtain ⟨e, hresolve⟩ | ⟨l, hresolve⟩ := resolve_cases path
    · exact ⟨e, by rw [Operation.run, delete, hresolve]; rfl⟩
    · obtain rfl : l = [] := by simpa [hresolve] using hrefused
      exact ⟨_, by rw [Operation.run, delete, hresolve]; rfl⟩

/-- **Paths that go up** are refused, and nothing is done. -/
theorem run_of_points (m : Mount) (h : Tree) (hpath : path ∈ op.paths)
    (hpoints : ".." ∈ pieces path) :
    ∃ e, op.run m h = (.error (.invalidParameters e), h) := by
  have hresolve := resolve_of_points hpoints
  cases op with
  | list path' =>
    obtain rfl := List.mem_singleton.mp hpath
    exact ⟨_, by rw [Operation.run, listEntries, hresolve]; rfl⟩
  | read path' =>
    obtain rfl := List.mem_singleton.mp hpath
    exact ⟨_, by rw [Operation.run, readText, hresolve]; rfl⟩
  | search query path' =>
    obtain rfl := List.mem_singleton.mp hpath
    rw [Operation.run, search, hresolve]
    split
    · exact ⟨_, rfl⟩
    · exact ⟨_, rfl⟩
  | write path' text => exact run_of_refused m h hpath (.inl ⟨_, hresolve⟩)
  | move source target => exact run_of_refused m h hpath (.inl ⟨_, hresolve⟩)
  | delete path' => exact run_of_refused m h hpath (.inl ⟨_, hresolve⟩)

/-! ### Confinement -/

/-- The operations of a workspace stay below the place of its root. -/
structure Mount.Confined (m : Mount) (base : Location) : Prop where
  /-- Paths that go up are refused. -/
  refuses (op : Operation) (h : Tree) (path : String) : path ∈ op.paths → ".." ∈ pieces path →
    ∃ e, op.run m h = (.error (.invalidParameters e), h)
  /-- The root itself is not changed. -/
  spares (op : Operation) (h : Tree) (path : String) : path ∈ op.altered → resolve path = .ok [] →
    ∃ e, op.run m h = (.error (.invalidParameters e), h)
  /-- Nothing is changed that is not below the root, but that missing directories are made on the
  way to it. -/
  keeps (op : Operation) (h : Tree) : Keeps base h (op.run m h).2
  /-- Where the root stands, nothing at all is changed that is not below it. -/
  leaves (op : Operation) (h t : Tree) (k : Location) : h.walk base = .ok t → ¬ base.IsAbove k →
    (op.run m h).2.item? k = h.item? k
  /-- Where the root stands, nothing else is read: the answers, and what is below the root, are
  those of the workspace alone. -/
  reads (op : Operation) (h t : Tree) : h.walk base = .ok t →
    Shadows base (op.run m h) (op.run m.alone t)

theorem Mount.StandsAt.confined (hm : m.StandsAt base) : m.Confined base where
  refuses _ h _ := run_of_points m h
  spares _ h _ hpath hroot := run_of_refused m h hpath (.inr hroot)
  keeps op h := keeps_run hm op h
  leaves op h _ _ hroot hk := (keeps_run hm op h).item?_eq hroot hk
  reads op _ _ hroot := shadows_run hm hroot op

/-- **No path leaves the workspace.**  A path is refused when one of its pieces is two points;
otherwise it leads from the root down by its other pieces, empty ones and single points left out.
Wherever the path of the root leads from the working directory, the operations stay below that
place.  What they do there, they do on the tree of the workspace. -/
theorem paths_confined :
    (∀ path, (∃ e, resolve path = .error e) ↔ ".." ∈ pieces path) ∧
    (∀ path, ".." ∈ pieces path →
      resolve path = .error (.invalidParameters ("Path '" ++ path ++ "' escapes the workspace"))) ∧
    (∀ path, ".." ∉ pieces path →
      resolve path = .ok ((pieces path).filter fun piece => piece ≠ "" ∧ piece ≠ ".")) ∧
    (∀ cwd root path l, resolve path = .ok l →
      arrival cwd (below root l) = arrival cwd root ++ l) ∧
    (∀ p q, ((pieces p).filter fun piece => piece ≠ "" ∧ piece ≠ ".") =
        ((pieces q).filter fun piece => piece ≠ "" ∧ piece ≠ ".") →
      (resolve p).toOption = (resolve q).toOption) ∧
    (∀ cwd root admits, (Mount.rooted cwd root admits).Confined (arrival cwd root)) ∧
    ∀ cwd root limit (op : Operation) (h t : Tree), h.walk (arrival cwd root) = .ok t →
      Shadows (arrival cwd root) (op.run (.rooted cwd root (Disk.admits limit)) h)
        (op.run (.whole limit) t) := by
  refine ⟨fun _ => resolve_error_iff, fun _ => resolve_of_points, fun _ => resolve_of_no_points,
    fun cwd root path l hpath => arrival_below cwd root (isName_of_resolve hpath),
    fun p q => toOption_resolve_congr, fun cwd root admits => ?_,
    fun cwd root limit op h t hroot => ?_⟩
  · exact (Mount.rooted_standsAt cwd root admits).confined
  · exact Mount.shadows_run (Mount.rooted_standsAt cwd root _) hroot op

/-- A file is written in a workspace that stands beside another file. -/
theorem paths_confined_beside :
    let host : Tree := .dir [("key", .file "k".toUTF8), ("srv", .empty)]
    let limit := Disk.limitBelow "/tmp/.tmpXXXXXX"
    let after :=
      (Operation.write "/d/a" "x").run (.rooted ["srv"] "../srv/." (Disk.admits limit)) host
    resolve "/d/../../key"
        = .error (.invalidParameters "Path '/d/../../key' escapes the workspace") ∧
    after.1 = .ok .done ∧
    after.2.walk ["srv"] = .ok (.dir [("d", .dir [("a", .file "x".toUTF8)])]) ∧
    after.2.item? ["key"] = some (.file "k".toUTF8) ∧ after.2.item? ["srv"] = some .dir := by
  intro host limit after
  obtain ⟨-, hescape, -, -, -, hconfined, hshadows⟩ := paths_confined
  have hplace : arrival ["srv"] "../srv/." = ["srv"] := by decide +kernel
  have hpoints : ".." ∈ pieces "/d/../../key" := by decide +kernel
  have hlong : Tree.isTooLong "srv" = false := by decide +kernel
  have hroot : host.walk ["srv"] = .ok .empty := Tree.walk_cons hlong rfl []
  have hm := hplace ▸ hconfined ["srv"] "../srv/." (Disk.admits limit)
  have hshadows :=
    hshadows ["srv"] "../srv/." limit (.write "/d/a" "x") host .empty (hplace ▸ hroot)
  rw [hplace, run_write_new_dir] at hshadows
  have habove (k : Location) (hk : ¬ Location.IsAbove ["srv"] k) : after.2.item? k = host.item? k :=
    hm.leaves (.write "/d/a" "x") host .empty k hroot hk
  refine ⟨hescape _ hpoints, hshadows.answer, hshadows.root, ?_, ?_⟩
  · rw [habove _ fun habove => by simpa using habove.1]
    rfl
  · rw [habove _ fun habove => habove.2 rfl]
    rfl

end Parley.Workspace
