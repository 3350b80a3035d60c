import Parley.Proofs.Workspace.Effects
import Parley.Proofs.Workspace.Paths

/-!
# Workspaces in order

What file operations make of an empty workspace is a directory in order
(`isWorkspace_of_reachable`): in each directory the names ascend, and each of them can be named in a
path and is taken by the disk (`IsStored`).

Names come into a workspace from paths, whose names are names (`Location.isName_of_ofPath?`), and
only where the disk has admitted them.  So the order is kept when directories are made
(`Tree.orderly_makeDirs`) and when an entry is changed (`Tree.orderly_modify`), and with that by
every operation, whether it succeeds or fails (`isWorkspace_run`).
-/

namespace Parley.Workspace

variable {t t' s : Tree} {l rest : Location} {name path text : String} {es : List (String × Tree)}
  {limit : Nat}

/-- A name that can stand in a directory of the disk. -/
structure IsStored (name : String) : Prop extends IsName name where
  no_nul : '\x00' ∉ name.toList
  fits : Tree.isTooLong name = false

theorem isStored_iff : IsStored name ↔ (name ≠ "" ∧ name ≠ "." ∧ name ≠ ".." ∧ '/' ∉ name.toList) ∧
    '\x00' ∉ name.toList ∧ Tree.isTooLong name = false := by
  constructor
  · rintro ⟨⟨hempty, hpoint, hpoints, hslash⟩, hnul, hfits⟩
    exact ⟨⟨hempty, hpoint, hpoints, hslash⟩, hnul, hfits⟩
  · rintro ⟨⟨hempty, hpoint, hpoints, hslash⟩, hnul, hfits⟩
    exact ⟨⟨hempty, hpoint, hpoints, hslash⟩, hnul, hfits⟩

instance (name : String) : Decidable (IsStored name) := decidable_of_iff _ isStored_iff.symm

/-- The names in all directories ascend and can stand there. -/
def Tree.Orderly (t : Tree) : Prop :=
  ∀ l es, t.at? l = some (.dir es) → Entries.Ascending es ∧ ∀ e ∈ es, IsStored e.1

/-! ### Trees in order -/

namespace Tree

theorem orderly_file (contents : ByteArray) : Orderly (.file contents) := by
  intro l es h
  cases l <;> cases h

theorem orderly_dir_iff : Orderly (.dir es) ↔ (Entries.Ascending es ∧ ∀ e ∈ es, IsStored e.1) ∧
    ∀ name s, es.lookup name = some s → s.Orderly := by
  constructor
  · intro h
    refine ⟨h [] es rfl, fun name s hs l es' hat => h (name :: l) es' ?_⟩
    rw [at?_dir_cons, hs, Option.bind_some, hat]
  · rintro ⟨hhere, hbelow⟩ l es' hat
    cases l with
    | nil =>
      cases hat
      exact hhere
    | cons name l =>
      rw [at?_dir_cons] at hat
      obtain ⟨s, hs, hat⟩ := Option.bind_eq_some_iff.mp hat
      exact hbelow name s hs l es' hat

theorem orderly_dir (hascending : Entries.Ascending es) (h : ∀ e ∈ es, IsStored e.1 ∧ e.2.Orderly) :
    Orderly (.dir es) := by
  refine orderly_dir_iff.mpr ⟨⟨hascending, fun e he => (h e he).1⟩, fun name s hs => ?_⟩
  exact (h (name, s) (Entries.mem_of_lookup hs)).2

theorem orderly_empty : Orderly .empty := by
  rw [empty, orderly_dir_iff]
  exact ⟨⟨List.Pairwise.nil, List.forall_mem_nil _⟩, fun name s hs => by cases hs⟩

theorem Orderly.below (h : t.Orderly) (hat : t.at? l = some s) : s.Orderly := by
  intro k es hk
  exact h (l ++ k) es (by rw [at?_append, hat, Option.bind_some, hk])

/-- The names on the way to what stands in a tree stand there. -/
theorem Orderly.isStored (h : t.Orderly) (hat : t.at? l = some s) : ∀ n ∈ l, IsStored n := by
  induction l generalizing t with
  | nil => exact List.forall_mem_nil _
  | cons name l ih =>
    cases t with
    | file contents => cases hat
    | dir es =>
      rw [at?_dir_cons] at hat
      obtain ⟨child, hchild, hat⟩ := Option.bind_eq_some_iff.mp hat
      obtain ⟨⟨-, hstored⟩, hbelow⟩ := orderly_dir_iff.mp h
      exact List.forall_mem_cons.mpr ⟨hstored _ (Entries.mem_of_lookup hchild),
        ih (hbelow name child hchild) hat⟩

theorem orderly_setEntry {s? : Option Tree} (h : Orderly (.dir es)) (hname : IsStored name)
    (hs : ∀ s, s? = some s → s.Orderly) : Orderly (.dir (setEntry name s? es)) := by
  obtain ⟨⟨hascending, hstored⟩, hbelow⟩ := orderly_dir_iff.mp h
  rw [orderly_dir_iff]
  cases s? with
  | none =>
    refine ⟨⟨Entries.ascending_erase name hascending,
      fun e he => hstored e (List.mem_filter.mp he).1⟩, fun n s hn => ?_⟩
    rw [setEntry, Entries.lookup_erase] at hn
    split at hn
    · cases hn
    · exact hbelow n s hn
  | some s' =>
    refine ⟨⟨Entries.ascending_put name s' hascending, Entries.forall_mem_put hstored hname⟩,
      fun n s hn => ?_⟩
    rw [setEntry, Entries.lookup_put] at hn
    split at hn
    · exact hs s hn
    · exact hbelow n s hn

theorem orderly_makeDirs (h : t.Orderly) (hl : ∀ n ∈ l, IsName n)
    (hnul : ∀ n ∈ l, '\x00' ∉ n.toList) :
    (t.makeDirs l).2.Orderly := by
  induction l generalizing t with
  | nil => cases t <;> (rw [makeDirs]; exact h)
  | cons name l ih =>
    cases t with
    | file contents => rw [makeDirs]; exact h
    | dir es =>
      cases hlong : isTooLong name with
      | true => rw [makeDirs_of_isTooLong hlong]; exact h
      | false =>
        obtain ⟨hname, hl⟩ := List.forall_mem_cons.mp hl
        obtain ⟨hnoNul, hnul⟩ := List.forall_mem_cons.mp hnul
        have hchild : ((es.lookup name).getD empty).Orderly := by
          cases hlookup : es.lookup name with
          | none => exact orderly_empty
          | some s => exact (orderly_dir_iff.mp h).2 name s hlookup
        rw [makeDirs_cons hlong]
        refine orderly_setEntry h ⟨hname, hnoNul, hlong⟩ fun s hs => ?_
        obtain rfl := Option.some.inj hs
        exact ih hchild hl hnul

/-- Where there are directories, none is made. -/
theorem Orderly.makeDirs_eq (h : t.Orderly) (hdir : t.item? l = some .dir) :
    t.makeDirs l = (.ok (), t) := by
  induction l generalizing t with
  | nil =>
    cases t with
    | file contents => cases hdir
    | dir es => rw [makeDirs]
  | cons name l ih =>
    cases t with
    | file contents => cases hdir
    | dir es =>
      obtain ⟨⟨hascending, hstored⟩, hbelow⟩ := orderly_dir_iff.mp h
      rw [item?_dir_cons] at hdir
      obtain ⟨child, hchild, hdir⟩ := Option.bind_eq_some_iff.mp hdir
      have hname : IsStored name := hstored _ (Entries.mem_of_lookup hchild)
      rw [makeDirs_cons hname.fits, hchild, Option.getD_some, ih (hbelow name child hchild) hdir,
        setEntry, Entries.put_of_lookup hascending hchild]

theorem orderly_modify {change : Option Tree → Except SystemError (Option Tree)} (h : t.Orderly)
    (hl : ∀ n ∈ name :: rest, IsStored n)
    (hnew : ∀ new, change (t.at? (name :: rest)) = .ok (some new) → new.Orderly)
    (hmodify : modify change t name rest = .ok t') : t'.Orderly := by
  induction rest generalizing t t' name with
  | nil =>
    cases t with
    | file contents => rw [modify] at hmodify; cases hmodify
    | dir es =>
      obtain ⟨hname, -⟩ := List.forall_mem_cons.mp hl
      have hat : (dir es).at? [name] = es.lookup name := by simp [at?_dir_cons]
      rw [modify_singleton hname.fits, map_eq_ok_iff] at hmodify
      obtain ⟨new?, hchange, rfl⟩ := hmodify
      refine orderly_setEntry h hname fun new hsome => hnew new ?_
      rw [hat, hchange, hsome]
  | cons next rest ih =>
    cases t with
    | file contents => rw [modify] at hmodify; cases hmodify
    | dir es =>
      obtain ⟨hname, hl⟩ := List.forall_mem_cons.mp hl
      cases hchild : es.lookup name with
      | none => rw [modify, hname.fits, hchild] at hmodify; cases hmodify
      | some s =>
        rw [modify_cons hname.fits hchild, map_eq_ok_iff] at hmodify
        obtain ⟨s', hbelow, rfl⟩ := hmodify
        have hat : (dir es).at? (name :: next :: rest) = s.at? (next :: rest) := by
          rw [at?_dir_cons, hchild, Option.bind_some]
        refine orderly_setEntry h hname fun new hsome => ?_
        obtain rfl := Option.some.inj hsome
        exact ih ((orderly_dir_iff.mp h).2 name s hchild) hl (hat ▸ hnew) hbelow

end Tree

/-! ### Operations keep the order -/

theorem isName_of_resolve (h : resolve path = .ok l) : ∀ n ∈ l, IsName n := by
  unfold resolve at h
  split at h
  · next hpath =>
    cases h
    exact Location.isName_of_ofPath? hpath
  · cases h

/-- A directory in order. -/
structure IsWorkspace (t : Tree) : Prop where
  root : t.item? [] = some .dir
  orderly : t.Orderly

theorem isWorkspace_empty : IsWorkspace .empty := ⟨rfl, Tree.orderly_empty⟩

namespace Disk

theorem isWorkspace_makeDirs (h : IsWorkspace t) (hl : ∀ n ∈ l, IsName n) :
    IsWorkspace (makeDirs t l (.whole limit)).2 := by
  unfold makeDirs
  split
  · exact h
  · next hadmits =>
    have hnul := hasNul_eq_false_iff.mp (admits_singleton_iff.mp hadmits).1
    refine ⟨?_, Tree.orderly_makeDirs h.orderly hl hnul⟩
    obtain hsame | ⟨-, -, hdir⟩ := t.item?_makeDirs l []
    · exact hsame.trans h.root
    · exact hdir

theorem isWorkspace_modify {change : Option Tree → Except SystemError (Option Tree)}
    (h : IsWorkspace t) (hl : ∀ n ∈ l, IsName n)
    (hnew : ∀ new, change (t.at? l) = .ok (some new) → new.Orderly)
    (hmodify : modify change t l (.whole limit) = .ok t') : IsWorkspace t' := by
  obtain ⟨hadmits, hfits, _, -, hreplaced⟩ := replaced_of_modify hmodify
  -- the disk has taken the path, so each name on it can stand in a directory
  have hnul := hasNul_eq_false_iff.mp (admits_singleton_iff.mp hadmits).1
  have hstored : ∀ n ∈ l, IsStored n := fun n hn => ⟨hl n hn, hnul n hn, hfits n hn⟩
  cases l with
  | nil => cases hmodify
  | cons name rest =>
    obtain ⟨_, -, hmodify⟩ := bind_eq_ok_iff.mp hmodify
    refine ⟨?_, Tree.orderly_modify h.orderly hstored hnew hmodify⟩
    rw [hreplaced.elsewhere [] (by simp), h.root]

theorem isWorkspace_write {contents : ByteArray} (h : IsWorkspace t) (hl : ∀ n ∈ l, IsName n)
    (hwrite : write contents t l (.whole limit) = .ok t') : IsWorkspace t' := by
  refine isWorkspace_modify h hl (fun new hnew => ?_) hwrite
  split at hnew
  · cases hnew
  · cases hnew
    exact Tree.orderly_file contents

theorem isWorkspace_remove (h : IsWorkspace t) (hl : ∀ n ∈ l, IsName n)
    (hremove : remove t l (.whole limit) = .ok t') : IsWorkspace t' := by
  refine isWorkspace_modify h hl (fun new hnew => ?_) hremove
  split at hnew <;> cases hnew

theorem isWorkspace_rename {source target : Location} (h : IsWorkspace t)
    (hsource : ∀ n ∈ source, IsName n) (htarget : ∀ n ∈ target, IsName n)
    (hrename : rename t source target (.whole limit) = .ok t') : IsWorkspace t' := by
  obtain ⟨moved, t₁, change, hat, -, hremove, hmodify, hchanged⟩ := exists_of_rename hrename
  refine isWorkspace_modify (isWorkspace_remove h hsource hremove) htarget
    (fun new hnew => ?_) hmodify
  obtain rfl := Option.some.inj (hchanged _ _ hnew).2
  exact h.orderly.below hat

end Disk

theorem isWorkspace_parents (h : IsWorkspace t) (hpath : resolve path = .ok l) :
    IsWorkspace (Disk.makeDirs t l.dropLast (.whole limit)).2 :=
  Disk.isWorkspace_makeDirs h fun n hn => isName_of_resolve hpath n (List.mem_of_mem_dropLast hn)

theorem isWorkspace_writeText (h : IsWorkspace t) :
    IsWorkspace (writeText t path text (.whole limit)).2 := by
  obtain ⟨e, hrefused⟩ | ⟨l, -, hpath, ⟨e, hended⟩ | ⟨t', hwrite, hdone⟩⟩ :=
    writeText_cases t path text (.whole limit)
  · rwa [hrefused]
  · rw [hended]
    exact isWorkspace_parents h hpath
  · rw [hdone]
    exact Disk.isWorkspace_write (isWorkspace_parents h hpath) (isName_of_resolve hpath) hwrite

theorem isWorkspace_movePath {source target : String} (h : IsWorkspace t) :
    IsWorkspace (movePath t source target (.whole limit)).2 := by
  obtain ⟨e, hrefused⟩ | ⟨s, d, -, -, hs, hd, ⟨e, hended⟩ | ⟨t', hrename, hdone⟩⟩ :=
    movePath_cases t source target (.whole limit)
  · rwa [hrefused]
  · rw [hended]
    exact isWorkspace_parents h hd
  · rw [hdone]
    exact Disk.isWorkspace_rename (isWorkspace_parents h hd) (isName_of_resolve hs)
      (isName_of_resolve hd) hrename

theorem isWorkspace_delete (h : IsWorkspace t) : IsWorkspace (delete t path (.whole limit)).2 := by
  obtain ⟨e, hrefused⟩ | ⟨l, t', -, hpath, hremove, hdone⟩ := delete_cases t path (.whole limit)
  · rwa [hrefused]
  · rw [hdone]
    exact Disk.isWorkspace_remove h (isName_of_resolve hpath) hremove

theorem isWorkspace_run (op : Operation) (h : IsWorkspace t) :
    IsWorkspace (op.run (.whole limit) t).2 := by
  cases op with
  | list path => exact h
  | read path => exact h
  | search query path => exact h
  | write path text => rw [Operation.run, Operation.change_snd]; exact isWorkspace_writeText h
  | move source target => rw [Operation.run, Operation.change_snd]; exact isWorkspace_movePath h
  | delete path => rw [Operation.run, Operation.change_snd]; exact isWorkspace_delete h

/-- The workspaces that file operations make of an empty one, with a limit for their paths. -/
inductive Reachable (limit : Nat) : Tree → Prop where
  | empty : Reachable limit .empty
  | run (op : Operation) {u : Tree} (h : Reachable limit u) :
    Reachable limit (op.run (.whole limit) u).2

/-- **What operations make of an empty workspace** is a directory in order. -/
theorem isWorkspace_of_reachable (h : Reachable limit t) : IsWorkspace t := by
  induction h with
  | empty => exact isWorkspace_empty
  | run op _ ih => exact isWorkspace_run op ih

end Parley.Workspace
