import Parley.Proofs.Workspace.Orderly
import Parley.Proofs.Workspace.Walk

/-!
# Paths that are reported

A listing gives each entry with a path, and a search gives each hit with the path of its file.  In a
workspace made by file operations, such a path is resolved to the location it was made of exactly
when trimming leaves the path as it is.  Then the operations on the path act on what is at that
location (`reported_paths`): they list it, read it, move it and delete it, unless the path is too
long for the disk (`Addresses`).

A path ends with a blank when the last name on it does.  Resolving trims the path, and what it names
then is something else.
-/

namespace Parley.Workspace

open Chat (ToolError)

variable {t t' s : Tree} {l d : Location} {path target text needle : String}
  {es : List (String × Tree)} {takes : Location → Bool} {limit : Nat} {m : Mount}

/-! ### What is found -/

theorem resolve_eq_ok_iff : resolve path = .ok l ↔ Location.ofPath? path = some l := by
  unfold resolve
  split <;> simp_all

/-- The path of what stands in a workspace in order is taken, unless it is too long as a whole. -/
theorem Tree.Orderly.takes_iff (h : t.Orderly) (hat : t.at? l = some s) :
    (Mount.whole limit).takes l = true ↔ Disk.isTooLong limit l = false := by
  have hnul : Disk.hasNul l = false :=
    Disk.hasNul_eq_false_iff.mpr fun n hn => (h.isStored hat n hn).no_nul
  rw [Mount.takes_iff, Mount.admits_whole, Disk.admits_singleton_iff]
  exact and_iff_right hnul

/-- What stands in a workspace in order is found, unless the path is too long as a whole. -/
theorem Tree.Orderly.inspect_eq_ok_iff (h : t.Orderly) :
    Disk.inspect t l (.whole limit) = .ok s ↔
      Disk.isTooLong limit l = false ∧ t.at? l = some s := by
  rw [Disk.inspect_eq_ok_iff, walk_eq_ok_iff]
  constructor
  · rintro ⟨hadmits, hat, -⟩
    exact ⟨(h.takes_iff hat).mp (Mount.takes_iff.mpr hadmits), hat⟩
  · rintro ⟨hlong, hat⟩
    exact ⟨Mount.takes_iff.mp ((h.takes_iff hat).mpr hlong), hat,
      fun n hn => (h.isStored hat n hn).fits⟩

theorem eq_toUTF8_of_fromUTF8? {contents : ByteArray} (h : String.fromUTF8? contents = some text) :
    contents = text.toUTF8 := by
  unfold String.fromUTF8? at h
  split at h
  · cases h
    rfl
  · cases h

theorem readText_eq_ok_iff (hpath : resolve path = .ok l) : readText t path m = .ok text ↔
    Disk.inspect t l m = .ok (.file text.toUTF8) ∧ text.utf8ByteSize ≤ readLimit := by
  constructor
  · intro h
    unfold readText at h
    rw [hpath, bind_eq_ok_iff] at h
    obtain ⟨_, ⟨⟩, h⟩ := h
    rw [bind_eq_ok_iff] at h
    obtain ⟨found, hfound, h⟩ := h
    rw [refused_eq_ok_iff] at hfound
    cases found with
    | dir es => cases h
    | file contents =>
      dsimp only at h
      split at h
      · cases h
      · next hsize =>
        split at h
        · next htext =>
          cases h
          obtain rfl := eq_toUTF8_of_fromUTF8? htext
          exact ⟨hfound, Nat.not_lt.mp hsize⟩
        · cases h
  · exact fun h => readText_of_inspect hpath h.1 h.2

theorem listEntries_eq_ok_iff {entries : List Entry} (hpath : resolve path = .ok l) :
    listEntries t path m = .ok entries ↔
      ∃ es, Disk.inspect t l m = .ok (.dir es) ∧ listing l es = entries := by
  unfold listEntries
  rw [hpath, bind_eq_ok_iff]
  constructor
  · rintro ⟨_, ⟨⟩, h⟩
    rw [bind_eq_ok_iff] at h
    obtain ⟨es, hes, hentries⟩ := h
    rw [refused_eq_ok_iff, Disk.list, bind_eq_ok_iff] at hes
    obtain ⟨found, hfound, hes⟩ := hes
    cases found with
    | file contents => cases hes
    | dir es' =>
      cases hes
      exact ⟨es, hfound, Except.ok.inj hentries⟩
  · rintro ⟨es, hfound, rfl⟩
    refine ⟨l, rfl, bind_eq_ok_iff.mpr ⟨es, refused_eq_ok_iff.mpr ?_, rfl⟩⟩
    rw [Disk.list, hfound]
    rfl

/-! ### Moving to where nothing is -/

/-- Something can be put at a location: nothing is there, it is in a directory, and the disk takes
its path. -/
structure Takes (limit : Nat) (t : Tree) (d : Location) : Prop where
  admitted : Disk.admits limit [d] = .ok ()
  fits : ∀ n ∈ d, Tree.isTooLong n = false
  free : t.at? d = none
  parent : t.item? d.dropLast = some .dir

theorem Takes.ne_nil (h : Takes limit t d) : d ≠ [] := by
  rintro rfl
  have hfree := h.free
  rw [Tree.at?_nil] at hfree
  cases hfree

namespace Disk

theorem walkToParent_of_item? (hdir : t.item? l.dropLast = some .dir)
    (hfits : ∀ n ∈ l, Tree.isTooLong n = false) :
    walkToParent t l (.whole limit) = .ok () := by
  obtain ⟨parent, hat, hitem⟩ := Option.map_eq_some_iff.mp hdir
  have hwalk : t.walk l.dropLast = .ok parent :=
    Tree.walk_eq_ok_iff.mpr ⟨hat, fun n hn => hfits n (List.mem_of_mem_dropLast hn)⟩
  refine bind_eq_ok_iff.mpr ⟨parent, hwalk, ?_⟩
  cases parent with
  | file contents => cases hitem
  | dir es => rfl

theorem exists_rename (hl : l ≠ []) (hfound : inspect t l (.whole limit) = .ok s)
    (htakes : Takes limit t d) (hinside : ¬ l <+: d) :
    ∃ t', rename t l d (.whole limit) = .ok t' := by
  obtain ⟨hadmits, hwalk⟩ := inspect_eq_ok_iff.mp hfound
  obtain ⟨hat, hfits⟩ := Tree.walk_eq_ok_iff.mp hwalk
  have hpair : admits limit [l, d] = .ok () := by
    rw [admits_eq_ok_iff, List.forall_mem_cons, ← admits_eq_ok_iff]
    exact ⟨admits_singleton_iff.mp hadmits, htakes.admitted⟩
  have hparent : t.item? l.dropLast = some .dir := Tree.item?_dropLast hl hat
  obtain ⟨t₁, hremove⟩ := exists_remove hl hfound
  have hdeleted : Deleted t t₁ l := deleted_of_remove hremove
  -- the target and its directory are not inside what is taken away
  have hfree : t₁.at? d = none := by
    rw [← Tree.item?_eq_none_iff, hdeleted.elsewhere d hinside, Tree.item?_eq_none_iff]
    exact htakes.free
  have hdir : t₁.item? d.dropLast = some .dir := by
    rw [hdeleted.elsewhere d.dropLast fun h => hinside (h.trans d.dropLast_prefix)]
    exact htakes.parent
  have hlast : (d.getLast?.map Tree.isTooLong).getD false = false := by
    cases hlast : d.getLast? with
    | none => rfl
    | some n => exact htakes.fits n (List.mem_of_getLast? hlast)
  have hnested : ¬ l.isPrefixOf d = true := fun h => hinside (List.isPrefixOf_iff_prefix.mp h)
  unfold rename
  rw [Mount.admits_whole, Mount.place_whole, Mount.place_whole, hpair,
    walkToParent_of_item? hparent hfits, walkToParent_of_item? htakes.parent htakes.fits, hwalk]
  show ∃ t', (if (d.getLast?.map Tree.isTooLong).getD false = true then _
    else if l.isPrefixOf d = true then _ else remove t l (.whole limit) >>= _) = Except.ok t'
  rw [hlast, if_neg Bool.false_ne_true, if_neg hnested, hremove]
  exact exists_modify htakes.ne_nil htakes.admitted htakes.fits hdir (by rw [hfree])

end Disk

theorem withParents_of_makeDirs {step : Tree → Except ToolError Tree} {t₁ : Tree}
    (hmade : Disk.makeDirs t l.dropLast m = (.ok (), t₁)) (hstep : step t₁ = .ok t') :
    withParents path t l step m = (.ok (), t') := by
  unfold withParents
  rw [hmade]
  dsimp only
  rw [hstep, settled]

theorem movePath_of_takes (hsource : resolve path = .ok l) (htarget : resolve target = .ok d)
    (ht : t.Orderly) (hl : l ≠ []) (hfound : Disk.inspect t l (.whole limit) = .ok s)
    (htakes : Takes limit t d) (hinside : ¬ l <+: d) :
    (movePath t path target (.whole limit)).1 = .ok () := by
  have hroot : ¬ (l.isEmpty || d.isEmpty) = true := by simp [hl, htakes.ne_nil]
  have hfree : ¬ (Disk.inspect t d (.whole limit)).toOption.isSome = true := by
    intro hsome
    cases hinspect : Disk.inspect t d (.whole limit) with
    | error e => simp [hinspect, Except.toOption] at hsome
    | ok found =>
      have hat := Disk.at?_of_inspect hinspect
      rw [htakes.free] at hat
      cases hat
  have hmade : Disk.makeDirs t d.dropLast (.whole limit) = (.ok (), t) := by
    rw [Disk.makeDirs, Mount.admits_whole, Disk.admits_dropLast htakes.admitted]
    exact ht.makeDirs_eq htakes.parent
  obtain ⟨t', hrename⟩ := Disk.exists_rename hl hfound htakes hinside
  unfold movePath
  rw [hsource, htarget]
  dsimp only
  rw [if_neg hroot, if_neg hfree, withParents_of_makeDirs hmade (refused_eq_ok_iff.mpr hrename)]

/-! ### What a path acts on -/

/-- The operations on a path act on what is at a location.  The disk refuses them when the path of
the location is too long as a whole. -/
structure Addresses (limit : Nat) (t : Tree) (path : String) (l : Location) : Prop where
  resolved : resolve path = .ok l
  lists : ∀ entries, listEntries t path (.whole limit) = .ok entries ↔
    Disk.isTooLong limit l = false ∧ ∃ es, t.at? l = some (.dir es) ∧ listing l es = entries
  reads : ∀ text, readText t path (.whole limit) = .ok text ↔
    Disk.isTooLong limit l = false ∧ t.at? l = some (.file text.toUTF8) ∧
    text.utf8ByteSize ≤ readLimit
  moved : ∀ target t', movePath t path target (.whole limit) = (.ok (), t') →
    ∃ d, resolve target = .ok d ∧ Moved t t' l d
  moves : ∀ target d, resolve target = .ok d → Takes limit t d → ¬ l <+: d →
    Disk.isTooLong limit l = false → (movePath t path target (.whole limit)).1 = .ok ()
  deleted : ∀ t', delete t path (.whole limit) = (.ok (), t') → Deleted t t' l
  deletes : Disk.isTooLong limit l = false → (delete t path (.whole limit)).1 = .ok ()

theorem delete_of_inspect (hpath : resolve path = .ok l) (hl : l ≠ [])
    (hfound : Disk.inspect t l (.whole limit) = .ok s) :
    (delete t path (.whole limit)).1 = .ok () := by
  obtain ⟨t', hremove⟩ := Disk.exists_remove hl hfound
  cases l with
  | nil => exact absurd rfl hl
  | cons name rest =>
    unfold delete
    rw [hpath]
    dsimp only
    rw [hremove]
    rfl

theorem addresses_of_resolve (ht : t.Orderly) (hpath : resolve path = .ok l) (hl : l ≠ [])
    (hat : t.at? l = some s) (limit : Nat) : Addresses limit t path l := by
  have hfound (hlong : Disk.isTooLong limit l = false) : Disk.inspect t l (.whole limit) = .ok s :=
    ht.inspect_eq_ok_iff.mpr ⟨hlong, hat⟩
  refine ⟨hpath, fun entries => ?_, fun text => ?_, fun target t' h => ?_,
    fun target d hd htakes hinside hlong => ?_, fun t' h => ?_, fun hlong =>
      delete_of_inspect hpath hl (hfound hlong)⟩
  · simp only [listEntries_eq_ok_iff hpath, ht.inspect_eq_ok_iff, and_assoc, exists_and_left]
  · rw [readText_eq_ok_iff hpath, ht.inspect_eq_ok_iff, and_assoc]
  · obtain ⟨s, d, hs, hd, hmoved⟩ := moved_of_movePath h
    obtain rfl := Except.ok.inj (hs.symm.trans hpath)
    exact ⟨d, hd, hmoved⟩
  · exact movePath_of_takes hpath hd ht hl (hfound hlong) htakes hinside
  · obtain ⟨l', hl', hdeleted⟩ := deleted_of_delete h
    obtain rfl := Except.ok.inj (hl'.symm.trans hpath)
    exact hdeleted

/-- A path that is reported for what is at a location. -/
structure Reported (limit : Nat) (t : Tree) (path : String) (l : Location) : Prop where
  resolve_iff : resolve path = .ok l ↔ Text.trim path = path
  addresses : Text.trim path = path → Addresses limit t path l

theorem reported_toPath (ht : t.Orderly) (hl : l ≠ []) (hat : t.at? l = some s) (limit : Nat) :
    Reported limit t (Location.toPath l) l := by
  have hname : ∀ n ∈ l, IsName n := fun n hn => (ht.isStored hat n hn).toIsName
  have hresolve : resolve (Location.toPath l) = .ok l ↔
      Text.trim (Location.toPath l) = Location.toPath l := by
    rw [resolve_eq_ok_iff, Location.ofPath?_toPath_iff hl hname]
  exact ⟨hresolve, fun htrim => addresses_of_resolve ht (hresolve.mpr htrim) hl hat limit⟩

/-! ### What is reported -/

theorem mem_listing_iff {e : Entry} : e ∈ listing l es ↔
    ∃ name s, (name, s) ∈ es ∧ e = ⟨name, Location.toPath (l ++ [name]), s.isDir, s.size⟩ := by
  have hkinds (all : List Entry) : e ∈ all.filter (·.isDir) ++ all.filter (!·.isDir) ↔ e ∈ all := by
    rw [List.mem_append, List.mem_filter, List.mem_filter]
    cases e.isDir <;> simp
  rw [listing, hkinds, List.mem_map]
  constructor
  · rintro ⟨⟨name, s⟩, hmem, rfl⟩
    exact ⟨name, s, hmem, rfl⟩
  · rintro ⟨name, s, hmem, rfl⟩
    exact ⟨(name, s), hmem, rfl⟩

theorem mem_hitsInEntries {hit : Hit} (h : hit ∈ hitsInEntries takes needle l es) :
    ∃ name s, (name, s) ∈ es ∧ hit ∈ hitsIn takes needle (l ++ [name]) s := by
  induction es with
  | nil =>
    rw [hitsInEntries] at h
    cases h
  | cons e es ih =>
    obtain ⟨name, s⟩ := e
    rw [hitsInEntries, List.mem_append] at h
    obtain h | h := h
    · exact ⟨name, s, List.mem_cons_self, h⟩
    · obtain ⟨name, s, hmem, hhit⟩ := ih h
      exact ⟨name, s, List.mem_cons_of_mem _ hmem, hhit⟩

/-- Each hit is one in a file at or below the location that is searched. -/
theorem mem_hitsIn {hit : Hit} {l : Location} {t : Tree} (ht : t.Orderly)
    (h : hit ∈ hitsIn takes needle l t) :
    ∃ k contents, t.at? k = some (.file contents) ∧
    hit ∈ hitsInFile takes needle (l ++ k) contents := by
  cases htree : t with
  | file contents =>
    rw [htree, hitsIn] at h
    exact ⟨[], contents, Tree.at?_nil _, by rwa [List.append_nil]⟩
  | dir es =>
    rw [htree, hitsIn] at h
    rw [htree, Tree.orderly_dir_iff] at ht
    obtain ⟨name, s, hmem, hhit⟩ := mem_hitsInEntries h
    have hs : es.lookup name = some s := Entries.lookup_of_mem ht.1.1 hmem
    obtain ⟨k, contents, hat, hfile⟩ := mem_hitsIn (ht.2 name s hs) hhit
    refine ⟨name :: k, contents, ?_, ?_⟩
    · rw [Tree.at?_dir_cons, hs, Option.bind_some, hat]
    · rwa [List.append_assoc] at hfile
termination_by sizeOf t
decreasing_by
  have hsize : sizeOf (name, s) < sizeOf es := List.sizeOf_lt_of_mem hmem
  rw [Prod.mk.sizeOf_spec] at hsize
  rw [htree, Tree.dir.sizeOf_spec]
  omega

theorem path_of_mem_hitsInText {hit : Hit} (h : hit ∈ hitsInText needle path text) :
    hit.path = path := by
  rw [hitsInText, List.mem_filterMap] at h
  obtain ⟨⟨line, i⟩, -, h⟩ := h
  dsimp only at h
  split_ifs at h
  cases h
  rfl

theorem mem_hitsInFile {hit : Hit} {contents : ByteArray}
    (h : hit ∈ hitsInFile takes needle l contents) :
    ∃ text, contents = text.toUTF8 ∧ hit ∈ hitsInText needle (Location.toPath l) text := by
  unfold hitsInFile at h
  split at h
  · cases h
  · split at h
    · next text htext => exact ⟨text, eq_toUTF8_of_fromUTF8? htext, h⟩
    · cases h

theorem mem_search {query : String} {hits : List Hit} {hit : Hit} (ht : t.Orderly)
    (h : search t query path (.whole limit) = .ok hits) (hmem : hit ∈ hits) :
    ∃ l k text, resolve path = .ok l ∧
      t.at? (l ++ k) = some (.file text.toUTF8) ∧
      hit ∈ hitsInText (Text.lower (Text.trim query)) (Location.toPath (l ++ k)) text := by
  unfold search at h
  dsimp only at h
  split_ifs at h
  rw [bind_eq_ok_iff] at h
  obtain ⟨l, hpath, h⟩ := h
  split at h
  · next found hfound =>
    cases h
    have hat : t.at? l = some found := Disk.at?_of_inspect hfound
    rw [firstHits_eq (Mount.takesParents_whole limit)] at hmem
    obtain ⟨k, contents, hbelow, hfile⟩ := mem_hitsIn (ht.below hat) (List.mem_of_mem_take hmem)
    obtain ⟨text, rfl, hhit⟩ := mem_hitsInFile hfile
    exact ⟨l, k, text, hpath, by rw [Tree.at?_append, hat, Option.bind_some, hbelow], hhit⟩
  · cases h
    cases hmem

/-- **Reported paths** address what they were reported for, exactly when trimming leaves them as
they are. -/
theorem reported_paths (h : Reachable limit t) (path : String) :
    (∀ entries, listEntries t path (.whole limit) = .ok entries →
      ∀ e ∈ entries, ∃ l s, resolve path = .ok l ∧ t.at? (l ++ [e.name]) = some s ∧
        e.isDir = s.isDir ∧ e.size = s.size ∧ Reported limit t e.path (l ++ [e.name])) ∧
    ∀ query hits, search t query path (.whole limit) = .ok hits →
      ∀ hit ∈ hits, ∃ l k text, resolve path = .ok l ∧
        t.at? (l ++ k) = some (.file text.toUTF8) ∧
        hit ∈ hitsInText (Text.lower (Text.trim query)) hit.path text ∧
        Reported limit t hit.path (l ++ k) := by
  obtain ⟨hroot, ht⟩ := isWorkspace_of_reachable h
  constructor
  · intro entries hlist e he
    have hresolve := hlist
    rw [listEntries, bind_eq_ok_iff] at hresolve
    obtain ⟨l, hpath, -⟩ := hresolve
    obtain ⟨es, hfound, rfl⟩ := (listEntries_eq_ok_iff hpath).mp hlist
    obtain ⟨name, s, hmem, rfl⟩ := mem_listing_iff.mp he
    have hat : t.at? l = some (.dir es) := Disk.at?_of_inspect hfound
    have hs : es.lookup name = some s := Entries.lookup_of_mem (ht l es hat).1 hmem
    have hat : t.at? (l ++ [name]) = some s := by
      rw [Tree.at?_append, hat, Option.bind_some, Tree.at?_dir_cons, hs, Option.bind_some,
        Tree.at?_nil]
    exact ⟨l, s, hpath, hat, rfl, rfl, reported_toPath ht (by simp) hat limit⟩
  · intro query hits hsearch hit hhit
    obtain ⟨l, k, text, hpath, hat, hmem⟩ := mem_search ht hsearch hhit
    -- a file was found, and the root is a directory
    have hne : l ++ k ≠ [] := by
      intro hnil
      rw [hnil] at hat
      rw [Tree.item?_of_at? hat] at hroot
      cases hroot
    refine ⟨l, k, text, hpath, hat, ?_⟩
    rw [path_of_mem_hitsInText hmem]
    exact ⟨hmem, reported_toPath ht hne hat limit⟩

theorem reported_paths_new_dir :
    let t : Tree := .dir [("d", .dir [("a", .file "x".toUTF8)])]
    let limit := Disk.limitBelow "/tmp/.tmpXXXXXX"
    Reachable limit t ∧ listEntries t "/" (.whole limit) = .ok [⟨"d", "/d", true, 0⟩] ∧
      Addresses limit t "/d" ["d"] := by
  intro t limit
  have hreachable : Reachable limit t := by
    have hrun : Reachable limit ((Operation.write "/d/a" "x").run (.whole limit) .empty).2 :=
      .run _ .empty
    rwa [run_write_new_dir] at hrun
  have hlist : listEntries t "/" (.whole limit) = .ok [⟨"d", "/d", true, 0⟩] := by decide +kernel
  have hroot : resolve "/" = .ok [] := by decide +kernel
  obtain ⟨l, s, hpath, -, -, -, hreported⟩ :=
    (reported_paths hreachable "/").1 _ hlist _ List.mem_cons_self
  obtain rfl := Except.ok.inj (hroot.symm.trans hpath)
  exact ⟨hreachable, hlist, hreported.addresses (by decide +kernel)⟩

-- The path of a directory whose name ends with a blank names another entry.
example : resolve (Location.toPath ["a "]) = .ok ["a"] := by decide +kernel

end Parley.Workspace
