import Parley.Proofs.Text.Bytes
import Parley.Proofs.Text.Pieces
import Parley.Proofs.Workspace.Reports
import Parley.Proofs.Workspace.Routes

/-!
# What a search finds

A `Spot` is a line of a file in the workspace.  A search looks for the spots at and below a location
whose line holds a phrase (`Spot.IsIn`), in the order of their places and, within a file, of their
lines (`Spot.Precedes`).  Places are compared name by name, as the bytes of the names are: this is
the order in which a directory comes before its entries and an entry, with all that is below it,
before the next one.

* `search_eq_take`: a search finds the first fifty of these spots, where it goes over files whose
  path is too long for the system.
* `search_misses_deep`: a file whose path is too long holds the phrase and is not found.

The proof goes over the list of all files (`filesIn`), which has each file once and in order
(`mem_filesIn`, `pairwise_filesIn`), and over the lines of each.
-/

namespace Parley.Workspace

open Chat (ToolError)

variable {takes : Location → Bool} {needle query path name : String} {l k r : Location}
  {t s : Tree} {es : List (String × Tree)} {contents : ByteArray} {limit : Nat}

/-! ### The phrase -/

theorem lowerBetween_ne_nil (before : List Char) (c : Char) (after : List Char) :
    Text.Casing.lowerBetween before c after ≠ [] := by
  unfold Text.Casing.lowerBetween Text.Casing.lowerChar
  split_ifs <;> exact List.cons_ne_nil _ _

theorem lowerOnto_ne_nil {written : List Char} (h : written ≠ []) (before cs : List Char) :
    Text.Casing.lowerOnto before written cs ≠ [] := by
  induction cs generalizing before written with
  | nil =>
    rw [Text.Casing.lowerOnto]
    exact List.reverse_ne_nil_iff.mpr h
  | cons c cs ih =>
    rw [Text.Casing.lowerOnto]
    exact ih (List.append_ne_nil_of_right_ne_nil _ h) _

/-- Nothing but the empty text has an empty lower case. -/
theorem lower_ne_empty {text : String} (h : text ≠ "") : Text.lower text ≠ "" := by
  obtain ⟨c, cs, htext⟩ := List.exists_cons_of_ne_nil (mt String.toList_eq_nil_iff.mp h)
  have hne : (Text.Casing.lowerBetween [] c cs).reverse ++ [] ≠ [] :=
    List.append_ne_nil_of_left_ne_nil (List.reverse_ne_nil_iff.mpr (lowerBetween_ne_nil [] c cs)) _
  rw [Text.lower, htext, Text.Casing.lowerOnto]
  exact mt String.ofList_eq_empty_iff.mp (lowerOnto_ne_nil hne _ _)

/-! ### Files -/

/-- The order of places: name by name, as the bytes of the names are. -/
def Before (l k : Location) : Prop := l.map Text.bytes < k.map Text.bytes

/-- What is below the one of two names comes before what is below the other. -/
theorem before_of_lt {m n : String} (h : m < n) (l r r' : Location) :
    Before (l ++ m :: r) (l ++ n :: r') := by
  have hbytes : Text.bytes m < Text.bytes n := Text.bytes_lt_bytes h
  rw [Before, List.map_append, List.map_append]
  exact List.append_left_lt (List.cons_lt_cons_iff.mpr (Or.inl hbytes))

mutual

/-- The files in a tree at a location, the entries of directories in order of name. -/
def filesIn (l : Location) : Tree → List (Location × ByteArray)
  | .file contents => [(l, contents)]
  | .dir es => filesInEntries l es

/-- The files in the entries of a directory at a location. -/
def filesInEntries (l : Location) : List (String × Tree) → List (Location × ByteArray)
  | [] => []
  | (name, t) :: rest => filesIn (l ++ [name]) t ++ filesInEntries l rest

end

theorem Tree.Orderly.of_mem (h : Orderly (.dir es)) {e : String × Tree} (he : e ∈ es) :
    e.2.Orderly := by
  obtain ⟨⟨hascending, -⟩, hbelow⟩ := orderly_dir_iff.mp h
  exact hbelow e.1 e.2 (Entries.lookup_of_mem hascending he)

mutual

/-- **Every file is listed** at its place, and nothing else is. -/
theorem mem_filesIn {l k : Location} {t : Tree} (h : t.Orderly) :
    (k, contents) ∈ filesIn l t ↔ ∃ r, k = l ++ r ∧ t.at? r = some (.file contents) := by
  cases t with
  | file c =>
    rw [filesIn, List.mem_singleton]
    constructor
    · rintro ⟨⟩
      exact ⟨[], (List.append_nil l).symm, rfl⟩
    · rintro ⟨_ | ⟨n, r⟩, rfl, hat⟩
      · cases hat
        rw [List.append_nil]
      · cases hat
  | dir es =>
    have hascending := (Tree.orderly_dir_iff.mp h).1.1
    rw [filesIn, mem_filesInEntries fun e he => h.of_mem he]
    constructor
    · rintro ⟨e, he, r, rfl, hat⟩
      exact ⟨e.1 :: r, rfl, by rw [Tree.at?_dir_cons, Entries.lookup_of_mem hascending he,
        Option.bind_some, hat]⟩
    · rintro ⟨_ | ⟨n, r⟩, rfl, hat⟩
      · cases hat
      · rw [Tree.at?_dir_cons] at hat
        obtain ⟨s, hs, hat⟩ := Option.bind_eq_some_iff.mp hat
        exact ⟨(n, s), Entries.mem_of_lookup hs, r, rfl, hat⟩

theorem mem_filesInEntries {l k : Location} {es : List (String × Tree)}
    (h : ∀ e ∈ es, e.2.Orderly) :
    (k, contents) ∈ filesInEntries l es ↔
      ∃ e ∈ es, ∃ r, k = l ++ e.1 :: r ∧ e.2.at? r = some (.file contents) := by
  cases es with
  | nil => simp [filesInEntries]
  | cons e es =>
    obtain ⟨name, t⟩ := e
    obtain ⟨ht, hes⟩ := List.forall_mem_cons.mp h
    rw [filesInEntries, List.mem_append, mem_filesIn ht, mem_filesInEntries hes,
      List.exists_mem_cons_iff]
    simp only [List.append_assoc, List.singleton_append]

end

mutual

/-- **The files are listed in order** of their places. -/
theorem pairwise_filesIn {l : Location} {t : Tree} (h : t.Orderly) :
    (filesIn l t).Pairwise fun a b => Before a.1 b.1 := by
  cases t with
  | file c =>
    rw [filesIn]
    exact List.pairwise_singleton _ _
  | dir es =>
    rw [filesIn]
    exact pairwise_filesInEntries (Tree.orderly_dir_iff.mp h).1.1 fun e he => h.of_mem he

theorem pairwise_filesInEntries {l : Location} {es : List (String × Tree)}
    (hascending : Entries.Ascending es) (h : ∀ e ∈ es, e.2.Orderly) :
    (filesInEntries l es).Pairwise fun a b => Before a.1 b.1 := by
  cases es with
  | nil =>
    rw [filesInEntries]
    exact List.Pairwise.nil
  | cons e es =>
    obtain ⟨name, t⟩ := e
    obtain ⟨ht, hes⟩ := List.forall_mem_cons.mp h
    obtain ⟨hfirst, hascending⟩ := List.pairwise_cons.mp hascending
    rw [filesInEntries, List.pairwise_append]
    refine ⟨pairwise_filesIn ht, pairwise_filesInEntries hascending hes, ?_⟩
    rintro ⟨k, c⟩ hk ⟨k', c'⟩ hk'
    obtain ⟨r, rfl, -⟩ := (mem_filesIn ht).mp hk
    obtain ⟨e, he, r', rfl, -⟩ := (mem_filesInEntries hes).mp hk'
    rw [List.append_assoc]
    exact before_of_lt (hfirst e he) l r r'

end

mutual

/-- All hits are those in the files, one after the other. -/
theorem hitsIn_eq (l : Location) (t : Tree) :
    hitsIn takes needle l t = (filesIn l t).flatMap fun (k, contents) =>
      hitsInFile takes needle k contents := by
  cases t with
  | file c => rw [hitsIn, filesIn, List.flatMap_singleton]
  | dir es => rw [hitsIn, filesIn, hitsInEntries_eq_flatMap]

theorem hitsInEntries_eq_flatMap (l : Location) (es : List (String × Tree)) :
    hitsInEntries takes needle l es =
      (filesInEntries l es).flatMap fun (k, contents) => hitsInFile takes needle k contents := by
  cases es with
  | nil => rw [hitsInEntries, filesInEntries, List.flatMap_nil]
  | cons e es =>
    obtain ⟨name, t⟩ := e
    rw [hitsInEntries, filesInEntries, List.flatMap_append, hitsIn_eq (l ++ [name]) t,
      hitsInEntries_eq_flatMap l es]

end

/-! ### Spots -/

/-- A line of a file. -/
structure Spot where
  /-- Where the file is. -/
  place : Location
  /-- The number of the line, counted from one. -/
  number : Nat
  line : String

namespace Spot

/-- The hit that a spot is reported as. -/
def hit (s : Spot) : Hit := ⟨Location.toPath s.place, s.number, Text.trim s.line⟩

/-- **A spot of a tree** at or below a location: a line, under its number, of a text of at most 1
MiB, which holds the phrase in its lower case. -/
structure IsIn (t : Tree) (l : Location) (needle : String) (s : Spot) : Prop where
  below : l <+: s.place
  reads : ∃ text : String, t.at? s.place = some (.file text.toUTF8) ∧
    text.utf8ByteSize ≤ 1024 * 1024 ∧
    ∃ i, (Text.lines text)[i]? = some s.line ∧ s.number = i + 1
  holds : needle.toList <:+: (Text.lower s.line).toList

/-- The order of spots: by place and, in the same file, by number. -/
def Precedes (a b : Spot) : Prop := Before a.place b.place ∨ a.place = b.place ∧ a.number < b.number

theorem Precedes.asymm {a b : Spot} (hab : a.Precedes b) (hba : b.Precedes a) : False := by
  obtain hab | ⟨hsame, hab⟩ := hab
  · obtain hba | ⟨hsame, -⟩ := hba
    · exact List.lt_asymm hab hba
    · rw [hsame] at hab
      exact List.lt_irrefl _ hab
  · obtain hba | ⟨-, hba⟩ := hba
    · rw [hsame] at hba
      exact List.lt_irrefl _ hba
    · exact Nat.lt_asymm hab hba

end Spot

/-- The spots in a file, unless its path is not taken or it is too large or no text. -/
def spotsInFile (takes : Location → Bool) (needle : String) (k : Location) (contents : ByteArray) :
    List Spot :=
  if !takes k || readLimit < contents.size then []
  else match String.fromUTF8? contents with
    | some text => (Text.lines text).zipIdx.filterMap fun (line, i) =>
        if Text.contains (Text.lower line) needle then some ⟨k, i + 1, line⟩ else none
    | none => []

theorem hitsInFile_eq (takes : Location → Bool) (needle : String) (k : Location)
    (contents : ByteArray) :
    hitsInFile takes needle k contents = (spotsInFile takes needle k contents).map Spot.hit := by
  unfold hitsInFile spotsInFile
  split
  · rfl
  · cases String.fromUTF8? contents with
    | some text =>
      dsimp only
      rw [hitsInText, List.map_filterMap]
      apply List.filterMap_congr
      intro e _
      dsimp only
      split <;> rfl
    | none => rfl

theorem mem_spotsInFile {s : Spot} : s ∈ spotsInFile takes needle k contents ↔
    s.place = k ∧ takes k = true ∧ needle.toList <:+: (Text.lower s.line).toList ∧
      ∃ text : String, contents = text.toUTF8 ∧ text.utf8ByteSize ≤ 1024 * 1024 ∧
        ∃ i, (Text.lines text)[i]? = some s.line ∧ s.number = i + 1 := by
  obtain ⟨place, number, line⟩ := s
  unfold spotsInFile
  constructor
  · intro h
    split at h
    · cases h
    · next htaken =>
      rw [Bool.or_eq_true, decide_eq_true_eq, not_or, Nat.not_lt, Bool.not_eq_true',
        Bool.not_eq_false] at htaken
      obtain ⟨htaken, hsize⟩ := htaken
      split at h
      · next text htext =>
        obtain rfl := eq_toUTF8_of_fromUTF8? htext
        obtain ⟨⟨line', i⟩, hline, h⟩ := List.mem_filterMap.mp h
        rw [Option.ite_none_right_eq_some] at h
        obtain ⟨hholds, ⟨⟩⟩ := h
        exact ⟨rfl, htaken, Text.contains_iff.mp hholds, text, rfl, hsize, i,
          List.mem_zipIdx_iff_getElem?.mp hline, rfl⟩
      · cases h
  · rintro ⟨rfl, htaken, hholds, text, rfl, hsize, i, hline, hnumber⟩
    have htext : String.fromUTF8? text.toUTF8 = some text := dif_pos text.isValidUTF8
    have hpasses : ¬ (!takes place || decide (readLimit < text.toUTF8.size)) = true := by
      rw [htaken, Bool.not_true, Bool.false_or, decide_eq_true_eq]
      exact Nat.not_lt.mpr hsize
    rw [if_neg hpasses, htext]
    refine List.mem_filterMap.mpr ⟨(line, i), List.mem_zipIdx_iff_getElem?.mpr hline, ?_⟩
    dsimp only at hnumber ⊢
    rw [if_pos (Text.contains_iff.mpr hholds), hnumber]

theorem pairwise_spotsInFile (takes : Location → Bool) (needle : String) (k : Location)
    (contents : ByteArray) :
    (spotsInFile takes needle k contents).Pairwise Spot.Precedes := by
  unfold spotsInFile
  split
  · exact List.Pairwise.nil
  · split
    · next text _ =>
      have hindices : (Text.lines text).zipIdx.Pairwise fun a b => a.2 < b.2 := by
        rw [← List.pairwise_map, List.zipIdx_map_snd]
        exact List.pairwise_lt_range'
      rw [List.pairwise_filterMap]
      refine hindices.imp fun {a b} hlt s hs s' hs' => ?_
      obtain ⟨-, hs⟩ := Option.ite_none_right_eq_some.mp hs
      obtain ⟨-, hs'⟩ := Option.ite_none_right_eq_some.mp hs'
      cases hs
      cases hs'
      exact Or.inr ⟨rfl, Nat.succ_lt_succ hlt⟩
    · exact List.Pairwise.nil

/-- The spots in a tree at a location that a search can come to. -/
def spotsIn (takes : Location → Bool) (needle : String) (l : Location) (t : Tree) : List Spot :=
  (filesIn l t).flatMap fun (k, contents) => spotsInFile takes needle k contents

theorem hitsIn_eq_map (l : Location) (t : Tree) :
    hitsIn takes needle l t = (spotsIn takes needle l t).map Spot.hit := by
  rw [hitsIn_eq, spotsIn, List.map_flatMap]
  simp only [hitsInFile_eq]

/-- The list of the spots with a property, each of them once and in order. -/
structure Lists (P : Spot → Prop) (all : List Spot) : Prop where
  complete : ∀ s, s ∈ all ↔ P s
  ordered : all.Pairwise Spot.Precedes

/-- There is one such list at most. -/
theorem Lists.unique {P : Spot → Prop} {all all' : List Spot} (h : Lists P all)
    (h' : Lists P all') :
    all' = all := by
  have hnodup {all : List Spot} (h : Lists P all) : all.Nodup :=
    h.ordered.imp fun hab hsame => (hsame ▸ hab).asymm (hsame ▸ hab)
  have hperm : List.Perm all' all :=
    (List.perm_ext_iff_of_nodup (hnodup h') (hnodup h)).mpr fun s =>
      (h'.complete s).trans (h.complete s).symm
  exact hperm.eq_of_pairwise (fun a b _ _ hab hba => (hab.asymm hba).elim) h'.ordered h.ordered

/-! ### The search -/

/-- The spots at and below a location that a search can come to. -/
def spotsAt (takes : Location → Bool) (needle : String) (l : Location) (t : Tree) : List Spot :=
  match t.at? l with
  | some s => spotsIn takes needle l s
  | none => []

theorem lists_spotsIn (h : t.Orderly) (hat : t.at? l = some s) (takes : Location → Bool)
    (needle : String) : Lists (fun spot => spot.IsIn t l needle ∧ takes spot.place = true)
      (spotsIn takes needle l s) := by
  have hs : s.Orderly := h.below hat
  constructor
  · intro spot
    rw [spotsIn, List.mem_flatMap]
    constructor
    · rintro ⟨⟨k, c⟩, hfile, hspot⟩
      obtain ⟨r, rfl, hr⟩ := (mem_filesIn hs).mp hfile
      obtain ⟨hplace, htaken, hholds, text, rfl, hsize, hline⟩ := mem_spotsInFile.mp hspot
      have hreads : t.at? spot.place = some (.file text.toUTF8) := by
        rw [hplace, Tree.at?_append, hat, Option.bind_some, hr]
      exact ⟨⟨⟨r, hplace.symm⟩, ⟨text, hreads, hsize, hline⟩, hholds⟩, hplace ▸ htaken⟩
    · rintro ⟨⟨⟨r, hplace⟩, ⟨text, hreads, hsize, hline⟩, hholds⟩, htaken⟩
      rw [← hplace, Tree.at?_append, hat, Option.bind_some] at hreads
      exact ⟨(l ++ r, text.toUTF8), (mem_filesIn hs).mpr ⟨r, rfl, hreads⟩,
        mem_spotsInFile.mpr ⟨hplace.symm, hplace ▸ htaken, hholds, text, rfl, hsize, hline⟩⟩
  · rw [spotsIn, List.pairwise_flatMap]
    refine ⟨fun file _ => pairwise_spotsInFile takes needle file.1 file.2, ?_⟩
    refine (pairwise_filesIn hs).imp fun hbefore spot hspot spot' hspot' => Or.inl ?_
    rw [(mem_spotsInFile.mp hspot).1, (mem_spotsInFile.mp hspot').1]
    exact hbefore

/-- **The spots that a search can come to** are listed, in order. -/
theorem lists_spotsAt (h : t.Orderly) (takes : Location → Bool) (needle : String) (l : Location) :
    Lists (fun spot => spot.IsIn t l needle ∧ takes spot.place = true)
      (spotsAt takes needle l t) := by
  unfold spotsAt
  cases hat : t.at? l with
  | some s => exact lists_spotsIn h hat takes needle
  | none =>
    refine ⟨fun spot => iff_of_false List.not_mem_nil ?_, List.Pairwise.nil⟩
    rintro ⟨⟨⟨r, hplace⟩, ⟨text, hreads, -⟩, -⟩, -⟩
    rw [← hplace, Tree.at?_append, hat] at hreads
    cases hreads

theorem search_eq_spotsAt (h : t.Orderly) (hquery : Text.allBlank query = false)
    (hpath : resolve path = .ok l) : search t query path (.whole limit) =
      .ok (((spotsAt (Mount.whole limit).takes (Text.lower (Text.trim query)) l t).take
        hitLimit).map Spot.hit) := by
  have hneedle : (Text.lower (Text.trim query)).isEmpty = false := by
    rw [String.isEmpty_eq_false_iff]
    refine lower_ne_empty fun hempty => ?_
    rw [Text.trim_eq_empty_iff.mp hempty] at hquery
    cases hquery
  have htakes : TakesParents (Mount.whole limit).takes := Mount.takesParents_whole limit
  unfold search spotsAt
  dsimp only
  rw [hneedle, hpath, if_neg Bool.false_ne_true]
  refine (pure_bind l _).trans ?_
  cases hfound : Disk.inspect t l (.whole limit) with
  | ok found =>
    dsimp only
    rw [Disk.at?_of_inspect hfound, firstHits_eq htakes, hitsIn_eq_map, List.map_take]
    rfl
  | error e =>
    cases hat : t.at? l with
    | none => rfl
    | some s =>
      -- what stands there is not found only if its path is not taken, and then it has no spots
      have htaken : (Mount.whole limit).takes l = false := by
        rw [Bool.eq_false_iff]
        intro htaken
        have hok := h.inspect_eq_ok_iff.mpr ⟨(h.takes_iff hat).mp htaken, hat⟩
        rw [hfound] at hok
        cases hok
      have hnone :
          (spotsIn (Mount.whole limit).takes (Text.lower (Text.trim query)) l s).map Spot.hit
          = [] := by
        rw [← hitsIn_eq_map, hitsIn_of_not_takes htakes htaken]
      dsimp only
      rw [List.map_take, hnone, List.take_nil]
      rfl

/-- The spots that a search can come to are those whose path is not too long. -/
theorem lists_spotsAt_whole (h : t.Orderly) (limit : Nat) (needle : String) (l : Location) :
    Lists (fun spot => spot.IsIn t l needle ∧ Disk.isTooLong limit spot.place = false)
      (spotsAt (Mount.whole limit).takes needle l t) := by
  obtain ⟨hcomplete, hordered⟩ := lists_spotsAt h (Mount.whole limit).takes needle l
  refine ⟨fun spot => (hcomplete spot).trans (and_congr_right fun hspot => ?_), hordered⟩
  obtain ⟨text, hreads, -⟩ := hspot.reads
  exact h.takes_iff hreads

/-- **A search finds the first fifty spots** at and below the location that a path names, of all
that it can come to.  At a location where nothing is, it finds nothing. -/
theorem search_eq_take (h : t.Orderly) (hquery : Text.allBlank query = false)
    (hpath : ".." ∉ pieces path) (limit : Nat) : ∃ l, resolve path = .ok l ∧
      (t.at? l = none → search t query path (.whole limit) = .ok []) ∧
      ∃ all, Lists (fun spot => spot.IsIn t l (Text.lower (Text.trim query)) ∧
          Disk.isTooLong limit spot.place = false) all ∧
        search t query path (.whole limit) = .ok ((all.take 50).map Spot.hit) := by
  have hresolve := resolve_of_no_points hpath
  have hsearch : search t query path (.whole limit) = _ := search_eq_spotsAt h hquery hresolve
  refine ⟨_, hresolve, fun hnone => ?_, _, lists_spotsAt_whole h limit _ _, hsearch⟩
  rw [hsearch, spotsAt, hnone]
  rfl

/-- The place `/a.txt` comes behind `/a/b`, although its path comes before. -/
theorem search_eq_take_two :
    let t : Tree :=
      .dir [("a", .dir [("b", .file "Yes\nno".toUTF8)]), ("a.txt", .file "oh yes".toUTF8)]
    t.Orderly ∧ Text.allBlank " YES" = false ∧ ".." ∉ pieces "/" ∧
      search t " YES" "/" .whole = .ok [⟨"/a/b", 1, "Yes"⟩, ⟨"/a.txt", 1, "oh yes"⟩] := by
  intro t
  have hbelow : Tree.Orderly (.dir [("b", .file "Yes\nno".toUTF8)]) := by
    apply Tree.orderly_dir (List.pairwise_singleton _ _)
    rw [List.forall_mem_singleton]
    exact ⟨by decide +kernel, Tree.orderly_file _⟩
  have ht : t.Orderly := by
    apply Tree.orderly_dir (List.pairwise_pair.mpr (by decide +kernel))
    rw [List.forall_mem_cons, List.forall_mem_singleton]
    exact ⟨⟨by decide +kernel, hbelow⟩, by decide +kernel, Tree.orderly_file _⟩
  have hquery : Text.allBlank " YES" = false := by decide +kernel
  have hpath : ".." ∉ pieces "/" := by decide +kernel
  refine ⟨ht, hquery, hpath, ?_⟩
  have hroot : resolve "/" = .ok [] := by decide +kernel
  obtain ⟨l, hl, -, all, hall, hsearch⟩ := search_eq_take ht hquery hpath _
  obtain rfl := Except.ok.inj (hroot.symm.trans hl)
  rw [hsearch, (lists_spotsAt_whole ht _ _ _).unique hall]
  decide +kernel

/-! ### A file that is not found -/

/-- What there is below a chain of directories. -/
def chain (l : Location) (s : Tree) : Tree := l.foldr (fun name t => .dir [(name, t)]) s

theorem orderly_chain (hl : ∀ n ∈ l, IsStored n) (hs : s.Orderly) : (chain l s).Orderly := by
  induction l with
  | nil => exact hs
  | cons name l ih =>
    obtain ⟨hname, hl⟩ := List.forall_mem_cons.mp hl
    apply Tree.orderly_dir (List.pairwise_singleton _ _)
    rw [List.forall_mem_singleton]
    exact ⟨hname, ih hl⟩

theorem at?_chain (l : Location) (s : Tree) : (chain l s).at? l = some s := by
  induction l with
  | nil => exact Tree.at?_nil s
  | cons name l ih =>
    rw [chain, List.foldr_cons, Tree.at?_dir_cons, List.lookup_cons_self, Option.bind_some]
    exact ih

theorem filesIn_chain (k l : Location) (contents : ByteArray) :
    filesIn k (chain l (.file contents)) = [(k ++ l, contents)] := by
  induction l generalizing k with
  | nil => rw [chain, List.foldr_nil, filesIn, List.append_nil]
  | cons name l ih =>
    rw [chain] at ih
    rw [chain, List.foldr_cons, filesIn, filesInEntries, filesInEntries, ih, List.append_nil,
      List.append_assoc]
    rfl

/-- The directories of a chain are above its end. -/
theorem exists_append_of_at?_chain (h : (chain l (.file contents)).at? k = some (.dir es)) :
    ∃ name r, k ++ name :: r = l := by
  induction l generalizing k with
  | nil => cases k <;> cases h
  | cons name l ih =>
    cases k with
    | nil => exact ⟨name, l, rfl⟩
    | cons m k =>
      rw [chain, List.foldr_cons, Tree.at?_dir_cons, Entries.lookup_cons] at h
      split at h
      · next hm =>
        rw [Option.bind_some] at h
        obtain ⟨n, r, rfl⟩ := ih h
        exact ⟨n, r, by rw [hm, List.cons_append]⟩
      · cases h

/-- A name of 250 bytes. -/
def longName : String := String.ofList (List.replicate 250 'a')

theorem eq_of_mem_longName {c : Char} (h : c ∈ longName.toList) : c = 'a' := by
  unfold longName at h
  generalize 250 = n at h
  rw [String.toList_ofList] at h
  exact List.eq_of_mem_replicate h

theorem isStored_longName : IsStored longName := by
  refine isStored_iff.mpr ⟨⟨by decide +kernel, by decide +kernel, by decide +kernel,
    fun hslash => ?_⟩, fun hnul => ?_, by decide +kernel⟩
  · exact absurd (eq_of_mem_longName hslash) (by decide)
  · exact absurd (eq_of_mem_longName hnul) (by decide)

/-- Seventeen long names. -/
def deep : Location := List.replicate 17 longName

/-- **A file that is too deep is not found.**  It holds the phrase, and all directories can be
read. -/
theorem search_misses_deep :
    let t := chain deep (.file "x".toUTF8)
    IsWorkspace t ∧ (∀ k es, t.at? k = some (.dir es) → Disk.list t k .whole = .ok es) ∧
      Text.allBlank "x" = false ∧ ".." ∉ pieces "/" ∧ resolve "/" = .ok [] ∧
      Spot.IsIn t [] (Text.lower (Text.trim "x")) ⟨deep, 1, "x"⟩ ∧
      search t "x" "/" .whole = .ok [] ∧
      ∀ all, Lists (Spot.IsIn t [] (Text.lower (Text.trim "x"))) all →
        search t "x" "/" .whole ≠ .ok ((all.take 50).map Spot.hit) := by
  intro t
  have hstored : ∀ n ∈ deep, IsStored n :=
    fun n hn => List.eq_of_mem_replicate hn ▸ isStored_longName
  have ht : t.Orderly := orderly_chain hstored (Tree.orderly_file _)
  have hat : t.at? deep = some (.file "x".toUTF8) := at?_chain deep _
  have hdir : t.item? [] = some .dir := by
    have hne : [] ≠ deep := (List.cons_ne_nil longName _).symm
    apply Tree.item?_above List.nil_prefix hne
    rw [Tree.item?_of_at? hat]
    exact Option.some_ne_none _
  have hquery : Text.allBlank "x" = false := by decide +kernel
  have hpath : ".." ∉ pieces "/" := by decide +kernel
  have hroot : resolve "/" = .ok [] := by decide +kernel
  have hdirs : ∀ k es, t.at? k = some (.dir es) → Disk.list t k .whole = .ok es := by
    intro k es hat
    have hfits : Disk.isTooLong (Disk.limitBelow "/tmp/.tmpXXXXXX") k = false := by
      obtain ⟨name, r, hdeep⟩ := exists_append_of_at?_chain hat
      have habove : Disk.isTooLong (Disk.limitBelow "/tmp/.tmpXXXXXX") deep.dropLast = false := by
        decide +kernel
      rw [← hdeep, List.dropLast_append_of_ne_nil (List.cons_ne_nil name r)] at habove
      rw [Bool.eq_false_iff]
      intro hlong
      rw [Disk.isTooLong_append hlong] at habove
      cases habove
    have hfound : Disk.inspect t k .whole = .ok (.dir es) := ht.inspect_eq_ok_iff.mpr ⟨hfits, hat⟩
    rw [Disk.list, hfound]
    rfl
  have hspot : Spot.IsIn t [] (Text.lower (Text.trim "x")) ⟨deep, 1, "x"⟩ := by
    refine ⟨List.nil_prefix, ⟨"x", hat, by decide +kernel, 0, by decide +kernel, rfl⟩, ?_⟩
    exact Text.contains_iff.mp (by decide +kernel)
  have hsearch : search t "x" "/" .whole = .ok [] := by
    have hspots : spotsAt Mount.whole.takes (Text.lower (Text.trim "x")) [] t = [] := by
      have hlong : Disk.isTooLong (Disk.limitBelow "/tmp/.tmpXXXXXX") deep = true := by
        decide +kernel
      have htaken : Mount.whole.takes deep = false := by
        rw [Bool.eq_false_iff, Ne, ht.takes_iff hat, hlong]
        exact Bool.noConfusion
      have hnone :
          spotsInFile Mount.whole.takes (Text.lower (Text.trim "x")) deep "x".toUTF8 = [] := by
        rw [spotsInFile, htaken, Bool.not_false, Bool.true_or, if_pos rfl]
      rw [spotsAt, Tree.at?_nil]
      dsimp only
      rw [spotsIn, filesIn_chain, List.flatMap_singleton]
      exact hnone
    rw [search_eq_spotsAt ht hquery hroot, hspots]
    rfl
  refine ⟨⟨hdir, ht⟩, hdirs, hquery, hpath, hroot, hspot, hsearch, fun all hall hfirst => ?_⟩
  rw [hsearch] at hfirst
  have hall_nil : all = [] := by simpa using (Except.ok.inj hfirst).symm
  have hmem := (hall.complete _).mpr hspot
  rw [hall_nil] at hmem
  cases hmem

end Parley.Workspace
