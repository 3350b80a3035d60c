import Parley.Proofs.Workspace.Limits
import Parley.Proofs.Workspace.View
import Parley.Workspace.Search

/-!
# What the file operations do

An operation that succeeds does what its name says and nothing else (`does_of_run`): a write puts a
file at its path (`Wrote`), a move puts all that was at one path to another one, where nothing was
(`Moved`), and a deletion takes away all that was at its path (`Deleted`).  The directories that
were missing on the way to the target of a write or a move are made; every other item is what it
was.

An operation that fails changes nothing, except that a write or a move may have made some of the
missing directories on the way to its target (`unchanged_of_run_error`, `Operation.Leaves`).  It
does so when the directories are made and the step that needs them is refused, as for the move of a
file that does not exist (`makes_directory_of_missing`).

Making the directories and the step behind them are taken apart: `Furnished` says what the first
does to the views of a tree, `Wrote` and `Moved` hold of the second alone, and what holds behind new
directories holds for the whole (`Wrote.of_furnished`, `Moved.of_furnished`).  Each operation is
opened once, in the lemma that lists its outcomes (`writeText_cases`, `movePath_cases`,
`delete_cases`).  All of it holds for every limit that the system sets to the length of paths.
-/

namespace Parley.Workspace

open Chat (ToolError)

variable {t t₁ t' : Tree} {l k s d : Location} {path text : String} {limit : Nat} {m : Mount}

/-! ### On the way to a location -/

/-- A location is on the way to another one. -/
def Location.IsAbove (k l : Location) : Prop := k <+: l ∧ k ≠ l

theorem Location.isAbove_iff (hl : l ≠ []) : k.IsAbove l ↔ k <+: l.dropLast := by
  obtain ⟨l, name, rfl⟩ := (List.eq_nil_or_concat' l).resolve_left hl
  rw [List.dropLast_concat, IsAbove, List.prefix_concat_iff]
  constructor
  · rintro ⟨heq | hway, hne⟩
    · exact absurd heq hne
    · exact hway
  · intro hway
    refine ⟨.inr hway, ?_⟩
    rintro rfl
    have hlength := hway.length_le
    rw [List.length_append, List.length_singleton] at hlength
    omega

/-- What is at a location is in a directory. -/
theorem Tree.item?_dropLast (hl : l ≠ []) (hat : t.at? l = some t₁) :
    t.item? l.dropLast = some .dir := by
  have habove : Location.IsAbove l.dropLast l := (Location.isAbove_iff hl).mpr (List.prefix_refl _)
  exact item?_above habove.1 habove.2 (by simp [item?_of_at? hat])

/-- Directories were made where nothing was on the way to a location. -/
structure Furnished (t t₁ : Tree) (l : Location) : Prop where
  items : ∀ k, t₁.item? k = t.item? k ∨ k.IsAbove l ∧ t.item? k = none ∧ t₁.item? k = some .dir
  trees : ∀ k, ¬ k.IsAbove l → t₁.at? k = t.at? k

theorem furnished_refl (t : Tree) (l : Location) : Furnished t t l :=
  ⟨fun _ => .inl rfl, fun _ _ => rfl⟩

theorem furnished_makeDirs (t : Tree) (hl : l ≠ []) : Furnished t (t.makeDirs l.dropLast).2 l := by
  constructor
  · intro k
    rw [Location.isAbove_iff hl]
    exact t.item?_makeDirs l.dropLast k
  · intro k hk
    rw [Location.isAbove_iff hl] at hk
    exact Tree.at?_makeDirs hk

theorem Furnished.item?_eq (h : Furnished t t₁ l) (hk : ¬ (k.IsAbove l ∧ t.item? k = none)) :
    t₁.item? k = t.item? k :=
  (h.items k).resolve_right fun hmade => hk ⟨hmade.1, hmade.2.1⟩

/-! ### What an operation has done -/

/-- A text stands in the file at a location. -/
structure Wrote (t t' : Tree) (l : Location) (text : String) : Prop where
  here : t'.item? l = some (.file text.toUTF8)
  above : ∀ k, k.IsAbove l → t'.item? k = some .dir
  elsewhere : ∀ k, k ≠ l → ¬ (k.IsAbove l ∧ t.item? k = none) → t'.item? k = t.item? k

/-- All that was at one location is at another one, where nothing was. -/
structure Moved (t t' : Tree) (s d : Location) : Prop where
  existed : t.at? s ≠ none
  free : t.at? d = none
  here : t'.at? d = t.at? s
  gone : t'.at? s = none
  above : ∀ k, k.IsAbove d → t'.item? k = some .dir
  elsewhere : ∀ k : Location, ¬ s <+: k → ¬ d <+: k → ¬ (k.IsAbove d ∧ t.item? k = none) →
    t'.item? k = t.item? k

/-- All that was at a location is gone. -/
structure Deleted (t t' : Tree) (l : Location) : Prop where
  existed : t.at? l ≠ none
  gone : t'.at? l = none
  elsewhere : ∀ k, ¬ l <+: k → t'.item? k = t.item? k

theorem Wrote.of_furnished (hmade : Furnished t t₁ l) (h : Wrote t₁ t' l text) :
    Wrote t t' l text := by
  refine ⟨h.here, h.above, fun k hne hk => ?_⟩
  have hsame : t₁.item? k = t.item? k := hmade.item?_eq hk
  rw [h.elsewhere k hne (by rwa [hsame]), hsame]

/-- Nothing is moved into itself. -/
theorem Moved.not_prefix (h : Moved t t' s d) : ¬ s <+: d := by
  rintro ⟨r, rfl⟩
  have hnone : t'.at? (s ++ r) = none := by rw [Tree.at?_append, h.gone, Option.bind_none]
  exact h.existed (h.here.symm.trans hnone)

theorem Moved.of_furnished (hmade : Furnished t t₁ d) (h : Moved t₁ t' s d) : Moved t t' s d := by
  have hs : t₁.at? s = t.at? s := hmade.trees s fun habove => h.not_prefix habove.1
  have hd : t₁.at? d = t.at? d := hmade.trees d fun habove => habove.2 rfl
  refine ⟨hs ▸ h.existed, hd ▸ h.free, h.here.trans hs, h.gone, h.above,
    fun k hsource htarget hk => ?_⟩
  have hsame : t₁.item? k = t.item? k := hmade.item?_eq hk
  rw [h.elsewhere k hsource htarget (by rwa [hsame]), hsame]

/-! ### The disk -/

namespace Disk

theorem inspect_eq_ok_iff :
    inspect t l (.whole limit) = .ok t' ↔ admits limit [l] = .ok () ∧ t.walk l = .ok t' := by
  rw [inspect, bind_eq_ok_iff]
  exact ⟨fun ⟨(), h⟩ => h, fun h => ⟨(), h⟩⟩

theorem at?_of_inspect (h : inspect t l (.whole limit) = .ok t') : t.at? l = some t' :=
  (Tree.walk_eq_ok_iff.mp (inspect_eq_ok_iff.mp h).2).1

theorem replaced_of_modify {change : Option Tree → Except SystemError (Option Tree)}
    (h : modify change t l (.whole limit) = .ok t') : admits limit [l] = .ok () ∧
      (∀ n ∈ l, Tree.isTooLong n = false) ∧
      ∃ new?, change (t.at? l) = .ok new? ∧ Tree.Replaced t t' l new? := by
  cases l with
  | nil => cases h
  | cons name rest =>
    obtain ⟨_, hadmits, hmodify⟩ := bind_eq_ok_iff.mp h
    obtain ⟨new?, hchange, hreplaced, hfits⟩ := Tree.replaced_of_modify hmodify
    exact ⟨hadmits, hfits, new?, hchange, hreplaced⟩

/-- Where a file was written, it is found. -/
theorem inspect_of_write {contents : ByteArray} (h : write contents t l (.whole limit) = .ok t') :
    inspect t' l (.whole limit) = .ok (.file contents) := by
  obtain ⟨hadmits, hfits, new?, hchange, hreplaced⟩ := replaced_of_modify h
  have hnew : new? = some (.file contents) := by
    split at hchange
    · cases hchange
    · exact (Except.ok.inj hchange).symm
  exact inspect_eq_ok_iff.mpr ⟨hadmits, Tree.walk_eq_ok_iff.mpr ⟨hnew ▸ hreplaced.here, hfits⟩⟩

theorem wrote_of_write (h : write text.toUTF8 t l (.whole limit) = .ok t') : Wrote t t' l text := by
  have hhere : t'.item? l = some (.file text.toUTF8) :=
    Tree.item?_of_at? (at?_of_inspect (inspect_of_write h))
  obtain ⟨-, -, new?, hchange, hreplaced⟩ := replaced_of_modify h
  have hnodir : t.item? l ≠ some .dir := by
    rw [Tree.item?]
    split at hchange
    · cases hchange
    · next hnodir =>
      cases hat : t.at? l with
      | none => simp
      | some s =>
        cases s with
        | file contents => simp [Tree.item]
        | dir es => exact absurd hat (hnodir es)
  refine ⟨hhere, fun k hk => Tree.item?_above hk.1 hk.2 (by simp [hhere]), fun k hne _ => ?_⟩
  by_cases hbelow : l <+: k
  · -- there was no directory and there is a file, so below it there is nothing before and after
    have hnone (u : Tree) (hu : u.item? l ≠ some .dir) : u.item? k = none := by
      by_contra hsome
      exact hu (Tree.item?_above hbelow (Ne.symm hne) hsome)
    rw [hnone t' (by simp [hhere]), hnone t hnodir]
  · exact hreplaced.elsewhere k hbelow

theorem deleted_of_remove (h : remove t l (.whole limit) = .ok t') : Deleted t t' l := by
  obtain ⟨-, -, new?, hchange, hreplaced⟩ := replaced_of_modify h
  split at hchange
  · next hsome =>
    obtain rfl := Except.ok.inj hchange
    exact ⟨by rw [hsome]; exact Option.some_ne_none _, hreplaced.here, hreplaced.elsewhere⟩
  · cases hchange

theorem exists_modify {change : Option Tree → Except SystemError (Option Tree)} {new? : Option Tree}
    (hl : l ≠ []) (hadmits : admits limit [l] = .ok ()) (hfits : ∀ n ∈ l, Tree.isTooLong n = false)
    (hdir : t.item? l.dropLast = some .dir) (hchange : change (t.at? l) = .ok new?) :
    ∃ t', modify change t l (.whole limit) = .ok t' := by
  cases l with
  | nil => exact absurd rfl hl
  | cons name rest =>
    obtain ⟨t', hmodify⟩ := Tree.exists_modify hdir hfits hchange
    exact ⟨t', bind_eq_ok_iff.mpr ⟨(), hadmits, hmodify⟩⟩

/-- What is found can be removed. -/
theorem exists_remove (hl : l ≠ []) (h : inspect t l (.whole limit) = .ok t₁) :
    ∃ t', remove t l (.whole limit) = .ok t' := by
  obtain ⟨hadmits, hwalk⟩ := inspect_eq_ok_iff.mp h
  obtain ⟨hat, hfits⟩ := Tree.walk_eq_ok_iff.mp hwalk
  exact exists_modify hl hadmits hfits (Tree.item?_dropLast hl hat) (by rw [hat])

/-- What a renaming does: it takes away what is at the source and puts it at the target, where
nothing is. -/
theorem exists_of_rename (h : rename t s d (.whole limit) = .ok t') :
    ∃ moved t₁ change, t.at? s = some moved ∧ ¬ s <+: d ∧
      remove t s (.whole limit) = .ok t₁ ∧ modify change t₁ d (.whole limit) = .ok t' ∧
      ∀ old? new?, change old? = .ok new? → old? = none ∧ new? = some moved := by
  unfold rename at h
  simp only [bind_eq_ok_iff] at h
  obtain ⟨_, -, _, -, _, -, moved, hwalk, h⟩ := h
  split_ifs at h with hlong hinside
  rw [bind_eq_ok_iff] at h
  obtain ⟨t₁, hremove, hmodify⟩ := h
  refine ⟨moved, t₁, _, (Tree.walk_eq_ok_iff.mp hwalk).1,
    fun hway => hinside (List.isPrefixOf_iff_prefix.mpr hway), hremove, hmodify,
    fun old? new? hchange => ?_⟩
  split at hchange
  · cases hchange
  · exact ⟨rfl, (Except.ok.inj hchange).symm⟩

theorem moved_of_rename (h : rename t s d (.whole limit) = .ok t') : Moved t t' s d := by
  obtain ⟨moved, t₁, change, hsource, hinside, hremove, hmodify, hchanged⟩ := exists_of_rename h
  have hdeleted : Deleted t t₁ s := deleted_of_remove hremove
  obtain ⟨-, -, new?, hchange, hreplaced⟩ := replaced_of_modify hmodify
  obtain ⟨hfree, rfl⟩ := hchanged _ new? hchange
  rw [← Tree.item?_eq_none_iff, hdeleted.elsewhere d hinside, Tree.item?_eq_none_iff] at hfree
  -- the source is not below the target, where nothing was
  have hbelow : ¬ d <+: s := by
    rintro ⟨r, rfl⟩
    rw [Tree.at?_append, hfree] at hsource
    cases hsource
  have hgone : t'.at? s = none := by
    rw [← Tree.item?_eq_none_iff, hreplaced.elsewhere s hbelow, Tree.item?_eq_none_iff]
    exact hdeleted.gone
  have hhere : t'.item? d ≠ none := by
    rw [Tree.item?_of_at? hreplaced.here]
    exact Option.some_ne_none _
  refine ⟨hdeleted.existed, hfree, hreplaced.here.trans hsource.symm, hgone,
    fun k hk => Tree.item?_above hk.1 hk.2 hhere, fun k hs hd _ => ?_⟩
  rw [hreplaced.elsewhere k hd, hdeleted.elsewhere k hs]

end Disk

/-! ### The store -/

theorem refused_eq_ok_iff {α : Type} {x : Except SystemError α} {a : α} :
    refused path x = .ok a ↔ x = .ok a := by
  cases x <;> simp [refused]

/-- A text of a size that is read is read from where it stands. -/
theorem readText_of_inspect (hpath : resolve path = .ok l)
    (hfile : Disk.inspect t l m = .ok (.file text.toUTF8)) (hsize : text.utf8ByteSize ≤ readLimit) :
    readText t path m = .ok text := by
  have htext : String.fromUTF8? text.toUTF8 = some text := dif_pos text.isValidUTF8
  have hlimit : ¬ readLimit < text.toUTF8.size := Nat.not_lt.mpr hsize
  unfold readText
  rw [hpath, bind_eq_ok_iff]
  refine ⟨l, rfl, bind_eq_ok_iff.mpr ⟨_, refused_eq_ok_iff.mpr hfile, ?_⟩⟩
  show (if readLimit < text.toUTF8.size then _ else _) = _
  rw [if_neg hlimit, htext]

theorem furnished_disk (hl : l ≠ []) (t : Tree) :
    Furnished t (Disk.makeDirs t l.dropLast (.whole limit)).2 l := by
  unfold Disk.makeDirs
  split
  · exact furnished_refl t l
  · exact furnished_makeDirs t hl

/-- Either all ends with the directories that were made, or the step behind them is taken. -/
theorem withParents_cases (path stepPath : String) (t : Tree) (l : Location)
    (step : Tree → Except SystemError Tree) (m : Mount) :
    (∃ e, withParents path t l (fun t => refused stepPath (step t)) m
        = (.error (.executionFailed e), (Disk.makeDirs t l.dropLast m).2)) ∨
      ∃ t', step (Disk.makeDirs t l.dropLast m).2 = .ok t' ∧
        withParents path t l (fun t => refused stepPath (step t)) m = (.ok (), t') := by
  unfold withParents
  split
  · next e t₁ hmade =>
    rw [hmade]
    exact .inl ⟨_, rfl⟩
  · next t₁ hmade =>
    rw [hmade]
    dsimp only
    cases step t₁ with
    | error e => exact .inl ⟨_, rfl⟩
    | ok t' => exact .inr ⟨t', rfl, rfl⟩

/-- A write is refused at once, or it ends with the directories, or the file is written. -/
theorem writeText_cases (t : Tree) (path text : String) (m : Mount) :
    (∃ e, writeText t path text m = (.error e, t)) ∨ ∃ l, l ≠ [] ∧ resolve path = .ok l ∧
      ((∃ e, writeText t path text m
          = (.error (.executionFailed e), (Disk.makeDirs t l.dropLast m).2)) ∨
        ∃ t', Disk.write text.toUTF8 (Disk.makeDirs t l.dropLast m).2 l m = .ok t' ∧
          writeText t path text m = (.ok (), t')) := by
  unfold writeText
  split
  · next e _ => exact .inl ⟨e, rfl⟩
  · exact .inl ⟨_, rfl⟩
  · next l hroot hpath =>
    exact .inr ⟨l, fun hl => hroot hl, hpath,
      withParents_cases path path t l (Disk.write text.toUTF8 · l m) m⟩

/-- A move is refused at once, or it ends with the directories, or what is moved is renamed. -/
theorem movePath_cases (t : Tree) (source target : String) (m : Mount) :
    (∃ e, movePath t source target m = (.error e, t)) ∨
      ∃ s d, s ≠ [] ∧ d ≠ [] ∧ resolve source = .ok s ∧ resolve target = .ok d ∧
        ((∃ e, movePath t source target m
            = (.error (.executionFailed e), (Disk.makeDirs t d.dropLast m).2)) ∨
          ∃ t', Disk.rename (Disk.makeDirs t d.dropLast m).2 s d m = .ok t' ∧
            movePath t source target m = (.ok (), t')) := by
  unfold movePath
  split
  · next e _ => exact .inl ⟨e, rfl⟩
  · next e _ _ => exact .inl ⟨e, rfl⟩
  · next s d hs hd =>
    split_ifs with hroot hexists
    · exact .inl ⟨_, rfl⟩
    · exact .inl ⟨_, rfl⟩
    · rw [Bool.or_eq_true, List.isEmpty_iff, List.isEmpty_iff, not_or] at hroot
      exact .inr ⟨s, d, hroot.1, hroot.2, hs, hd,
        withParents_cases target source t d (Disk.rename · s d m) m⟩

/-- A deletion is refused, or it removes what is at the path. -/
theorem delete_cases (t : Tree) (path : String) (m : Mount) :
    (∃ e, delete t path m = (.error e, t)) ∨ ∃ l t', l ≠ [] ∧ resolve path = .ok l ∧
      Disk.remove t l m = .ok t' ∧ delete t path m = (.ok (), t') := by
  unfold delete
  split
  · next e _ => exact .inl ⟨e, rfl⟩
  · exact .inl ⟨_, rfl⟩
  · next l hroot hpath =>
    cases hremove : Disk.remove t l m with
    | error e => exact .inl ⟨_, rfl⟩
    | ok t' => exact .inr ⟨l, t', fun hl => hroot hl, hpath, hremove, rfl⟩

theorem wrote_of_writeText (h : writeText t path text (.whole limit) = (.ok (), t')) :
    ∃ l, resolve path = .ok l ∧ Wrote t t' l text ∧
      (text.utf8ByteSize ≤ readLimit → readText t' path (.whole limit) = .ok text) := by
  obtain ⟨e, hrefused⟩ | ⟨l, hl, hpath, ⟨e, hended⟩ | ⟨t'', hwrite, hdone⟩⟩ :=
    writeText_cases t path text (.whole limit)
  · rw [hrefused] at h
    cases h
  · rw [hended] at h
    cases h
  · rw [hdone] at h
    cases h
    exact ⟨l, hpath, .of_furnished (furnished_disk hl t) (Disk.wrote_of_write hwrite),
      readText_of_inspect hpath (Disk.inspect_of_write hwrite)⟩

theorem moved_of_movePath {source target : String}
    (h : movePath t source target (.whole limit) = (.ok (), t')) :
    ∃ s d, resolve source = .ok s ∧ resolve target = .ok d ∧ Moved t t' s d := by
  obtain ⟨e, hrefused⟩ | ⟨s, d, -, hd, hsource, htarget, ⟨e, hended⟩ | ⟨t'', hrename, hdone⟩⟩ :=
    movePath_cases t source target (.whole limit)
  · rw [hrefused] at h
    cases h
  · rw [hended] at h
    cases h
  · rw [hdone] at h
    cases h
    exact ⟨s, d, hsource, htarget,
      .of_furnished (furnished_disk hd t) (Disk.moved_of_rename hrename)⟩

theorem deleted_of_delete (h : delete t path (.whole limit) = (.ok (), t')) :
    ∃ l, resolve path = .ok l ∧ Deleted t t' l := by
  obtain ⟨e, hrefused⟩ | ⟨l, t'', -, hpath, hremove, hdone⟩ := delete_cases t path (.whole limit)
  · rw [hrefused] at h
    cases h
  · rw [hdone] at h
    cases h
    exact ⟨l, hpath, Disk.deleted_of_remove hremove⟩

/-! ### Operations -/

/-- A file operation with its arguments. -/
inductive Operation where
  | list (path : String)
  | read (path : String)
  | search (query path : String)
  | write (path text : String)
  | move (source target : String)
  | delete (path : String)
deriving DecidableEq, Repr

/-- What an operation answers when it succeeds. -/
inductive Answer where
  | entries (entries : List Entry)
  | text (text : String)
  | hits (hits : List Hit)
  | done
deriving DecidableEq, Repr

namespace Operation

/-- Look at the workspace. -/
def look {α : Type} (report : α → Answer) (found : Except ToolError α) (t : Tree) :
    Except ToolError Answer × Tree := (found.map report, t)

/-- Change the workspace. -/
def change (changed : Except ToolError Unit × Tree) : Except ToolError Answer × Tree :=
  (changed.1.map fun _ => .done, changed.2)

/-- The answer to an operation on a workspace, and the disk after it. -/
def run (m : Mount) : Operation → Tree → Except ToolError Answer × Tree
  | list path, t => look .entries (listEntries t path m) t
  | read path, t => look .text (readText t path m) t
  | search query path, t => look .hits (Workspace.search t query path m) t
  | write path text, t => change (writeText t path text m)
  | move source target, t => change (movePath t source target m)
  | delete path, t => change (Workspace.delete t path m)

/-- The path on whose way missing directories are made. -/
def target? : Operation → Option String
  | write path _ | move _ path => some path
  | list _ | read _ | search _ _ | delete _ => none

/-- What an operation that succeeds does to a workspace with a limit for its paths. -/
def Does (limit : Nat) : Operation → Tree → Tree → Prop
  | list _, t, t' | read _, t, t' | search _ _, t, t' => t' = t
  | write path text, t, t' => ∃ l, resolve path = .ok l ∧ Wrote t t' l text ∧
      (text.utf8ByteSize ≤ readLimit → readText t' path (.whole limit) = .ok text)
  | move source target, t, t' =>
    ∃ s d, resolve source = .ok s ∧ resolve target = .ok d ∧ Moved t t' s d ∧
      ∀ k contents, t.item? k = some (.file contents) →
        t'.item? (if s <+: k then d ++ k.drop s.length else k) = some (.file contents)
  | delete path, t, t' => ∃ l, resolve path = .ok l ∧ Deleted t t' l

/-- What an operation that fails with an error leaves of the workspace: all of it, but for
directories that were missing on the way to its target.  When its parameters are refused, not even
these are made. -/
structure Leaves (op : Operation) (e : ToolError) (t t' : Tree) : Prop where
  all : op.target? = none ∨ (∃ m, e = .invalidParameters m) → t' = t
  items : ∀ k : Location, t'.item? k = t.item? k ∨ ∃ path l, op.target? = some path ∧
    resolve path = .ok l ∧
    k.IsAbove l ∧ t.item? k = none ∧ t'.item? k = some .dir

end Operation

/-- No file is lost by a move. -/
theorem Moved.item?_file {contents : ByteArray} (h : Moved t t' s d)
    (hfile : t.item? k = some (.file contents)) :
    t'.item? (if s <+: k then d ++ k.drop s.length else k) = some (.file contents) := by
  split
  · next hbelow =>
    obtain ⟨r, rfl⟩ := hbelow
    rw [List.drop_left, Tree.item?_append, h.here, ← Tree.item?_append]
    exact hfile
  · next hbelow =>
    have htarget : ¬ d <+: k := by
      rintro ⟨r, rfl⟩
      rw [Tree.item?_append, h.free] at hfile
      cases hfile
    rw [h.elsewhere k hbelow htarget (by simp [hfile])]
    exact hfile

variable {op : Operation} {answer : Answer} {e : ToolError}

theorem Operation.eq_of_look {α : Type} {report : α → Answer} {found : Except ToolError α}
    {result : Except ToolError Answer} (h : look report found t = (result, t')) : t' = t :=
  (Prod.mk.inj h).2.symm

theorem Operation.of_change_ok {changed : Except ToolError Unit × Tree}
    (h : change changed = (.ok answer, t')) :
    changed = (.ok (), t') := by
  obtain ⟨result, t⟩ := changed
  cases result with
  | error e => cases h
  | ok u =>
    cases h
    rfl

theorem Operation.of_change_error {changed : Except ToolError Unit × Tree}
    (h : change changed = (.error e, t')) :
    changed = (.error e, t') := by
  obtain ⟨result, t⟩ := changed
  cases result with
  | error e => cases h; rfl
  | ok u => cases h

theorem Operation.change_snd (changed : Except ToolError Unit × Tree) :
    (change changed).2 = changed.2 := rfl

/-- **Operations that succeed** do what they say and nothing else. -/
theorem does_of_run (h : op.run (.whole limit) t = (.ok answer, t')) : op.Does limit t t' := by
  cases op with
  | list path => exact Operation.eq_of_look h
  | read path => exact Operation.eq_of_look h
  | search query path => exact Operation.eq_of_look h
  | write path text => exact wrote_of_writeText (Operation.of_change_ok h)
  | move source target =>
    obtain ⟨s, d, hs, hd, hmoved⟩ := moved_of_movePath (Operation.of_change_ok h)
    exact ⟨s, d, hs, hd, hmoved, fun k contents => hmoved.item?_file⟩
  | delete path => exact deleted_of_delete (Operation.of_change_ok h)

theorem run_write_new_dir : (Operation.write "/d/a" "x").run .whole .empty
    = (.ok .done, .dir [("d", .dir [("a", .file "x".toUTF8)])]) := by
  have htarget : resolve "/d/a" = .ok ["d", "a"] := by decide +kernel
  have hadmits : Mount.whole.admits [["d", "a"]] = .ok () ∧
      Mount.whole.admits [["d"]] = .ok () := by
    decide +kernel
  have hfits : Tree.isTooLong "d" = false ∧ Tree.isTooLong "a" = false := by decide +kernel
  simp [Operation.run, Operation.change, writeText, htarget, hadmits, hfits, withParents, settled,
    Disk.makeDirs, Disk.write, Disk.modify, Tree.empty, Tree.makeDirs, Tree.modify, Tree.setEntry,
    Entries.put, refused, bind, Except.bind, pure, Except.pure, Except.map]

theorem does_of_run_new_dir : (Operation.write "/d/a" "x").run .whole .empty
      = (.ok .done, .dir [("d", .dir [("a", .file "x".toUTF8)])]) ∧
    (Operation.write "/d/a" "x").Does (Disk.limitBelow "/tmp/.tmpXXXXXX") .empty
      (.dir [("d", .dir [("a", .file "x".toUTF8)])]) :=
  ⟨run_write_new_dir, does_of_run run_write_new_dir⟩

/-! ### Operations that fail -/

theorem furnished_of_writeText (h : writeText t path text (.whole limit) = (.error e, t')) :
    t' = t ∨ ∃ l text, resolve path = .ok l ∧ Furnished t t' l ∧ e = .executionFailed text := by
  obtain ⟨_, hrefused⟩ | ⟨l, hl, hpath, ⟨_, hended⟩ | ⟨t'', -, hdone⟩⟩ :=
    writeText_cases t path text (.whole limit)
  · rw [hrefused] at h
    cases h
    exact .inl rfl
  · rw [hended] at h
    cases h
    exact .inr ⟨l, _, hpath, furnished_disk hl t, rfl⟩
  · rw [hdone] at h
    cases h

theorem furnished_of_movePath {source target : String}
    (h : movePath t source target (.whole limit) = (.error e, t')) :
    t' = t ∨ ∃ l text, resolve target = .ok l ∧ Furnished t t' l ∧ e = .executionFailed text := by
  obtain ⟨_, hrefused⟩ | ⟨s, d, -, hd, -, htarget, ⟨_, hended⟩ | ⟨t'', -, hdone⟩⟩ :=
    movePath_cases t source target (.whole limit)
  · rw [hrefused] at h
    cases h
    exact .inl rfl
  · rw [hended] at h
    cases h
    exact .inr ⟨d, _, htarget, furnished_disk hd t, rfl⟩
  · rw [hdone] at h
    cases h

theorem eq_of_delete_error (h : delete t path m = (.error e, t')) : t' = t := by
  obtain ⟨_, hrefused⟩ | ⟨l, t'', -, -, -, hdone⟩ := delete_cases t path m
  · rw [hrefused] at h
    cases h
    rfl
  · rw [hdone] at h
    cases h

theorem Operation.leaves_refl (op : Operation) (e : ToolError) (t : Tree) : op.Leaves e t t :=
  ⟨fun _ => rfl, fun _ => .inl rfl⟩

theorem Operation.leaves_of_furnished {text : String} (htarget : op.target? = some path)
    (hpath : resolve path = .ok l) (h : Furnished t t' l) :
    op.Leaves (.executionFailed text) t t' := by
  refine ⟨fun hnone => ?_, fun k => (h.items k).imp_right fun hmade => ⟨path, l, htarget,
    hpath, hmade⟩⟩
  simp [htarget] at hnone

/-- **Operations that fail** change nothing, but for directories that were missing on the way to the
target of a write or a move. -/
theorem unchanged_of_run_error (h : op.run (.whole limit) t = (.error e, t')) :
    op.Leaves e t t' := by
  cases op with
  | list path =>
    obtain rfl := Operation.eq_of_look h
    exact Operation.leaves_refl _ e t'
  | read path =>
    obtain rfl := Operation.eq_of_look h
    exact Operation.leaves_refl _ e t'
  | search query path =>
    obtain rfl := Operation.eq_of_look h
    exact Operation.leaves_refl _ e t'
  | delete path =>
    obtain rfl := eq_of_delete_error (Operation.of_change_error h)
    exact Operation.leaves_refl _ e t'
  | write path text =>
    obtain rfl | ⟨l, text, hpath, hmade, rfl⟩ :=
      furnished_of_writeText (Operation.of_change_error h)
    · exact Operation.leaves_refl _ e t'
    · exact Operation.leaves_of_furnished rfl hpath hmade
  | move source target =>
    obtain rfl | ⟨l, text, hpath, hmade, rfl⟩ := furnished_of_movePath (Operation.of_change_error h)
    · exact Operation.leaves_refl _ e t'
    · exact Operation.leaves_of_furnished rfl hpath hmade

theorem run_move_missing : (Operation.move "/missing" "/x/y").run .whole .empty
    = (.error (.executionFailed "/missing: No such file or directory (os error 2)"),
      .dir [("x", .empty)]) := by
  have hsource : resolve "/missing" = .ok ["missing"] := by decide +kernel
  have htarget : resolve "/x/y" = .ok ["x", "y"] := by decide +kernel
  have hadmits : Mount.whole.admits [["x", "y"]] = .ok () ∧ Mount.whole.admits [["x"]] = .ok () ∧
      Mount.whole.admits [["missing"], ["x", "y"]] = .ok () := by decide +kernel
  have hfits : Tree.isTooLong "x" = false ∧ Tree.isTooLong "missing" = false := by decide +kernel
  simp [Operation.run, Operation.change, movePath, hsource, htarget, hadmits, hfits, withParents,
    settled, Disk.inspect, Disk.makeDirs, Disk.rename, Disk.walkToParent, Tree.empty, Tree.walk,
    Tree.makeDirs, Entries.put, List.lookup_cons, refused, SystemError.message, bind, Except.bind,
    pure, Except.pure, Except.map, Except.toOption]

theorem unchanged_of_run_error_missing : (Operation.move "/missing" "/x/y").run .whole .empty
      = (.error (.executionFailed "/missing: No such file or directory (os error 2)"),
        .dir [("x", .empty)]) ∧
    (Operation.move "/missing" "/x/y").Leaves
      (.executionFailed "/missing: No such file or directory (os error 2)") .empty
      (.dir [("x", .empty)]) :=
  ⟨run_move_missing, unchanged_of_run_error run_move_missing⟩

/-- A directory is left behind on the way to where a missing file was to be moved. -/
theorem makes_directory_of_missing :
    ((Operation.move "/missing" "/x/y").run .whole .empty).1
      = .error (.executionFailed "/missing: No such file or directory (os error 2)") ∧
    Tree.empty.item? ["x"] = none ∧
    ((Operation.move "/missing" "/x/y").run .whole .empty).2.item? ["x"] = some .dir := by
  rw [run_move_missing]
  exact ⟨rfl, rfl, rfl⟩

end Parley.Workspace
