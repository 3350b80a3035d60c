import Mathlib.Data.List.Infix
import Parley.Proofs.Outcomes
import Parley.Workspace.Disk

/-!
# What stands in a tree

`Tree.at?` gives all that is at a location.  `Tree.item?` gives only what stands there itself, a
file with its bytes or a directory, so that a change deep inside a directory is no change of the
directory.  What a change does is said by these two views:

* walking finds what is at a location when no name on the way is too long (`walk_eq_ok_iff`);
* making directories puts directories where nothing was on the way to a location, and leaves all
  else as it was (`at?_makeDirs`, `item?_makeDirs`);
* changing an entry replaces all that is at its location and leaves all else as it was
  (`replaced_of_modify`, with `exists_modify` for when it succeeds).
-/

namespace Parley.Workspace

/-- What stands at a location, without what is in it. -/
inductive Item where
  | file (contents : ByteArray)
  | dir

namespace Tree

def item : Tree → Item
  | .file contents => .file contents
  | .dir _ => .dir

/-- What stands at a location itself. -/
def item? (t : Tree) (l : Location) : Option Item := (t.at? l).map item

variable {t t' s : Tree} {l k rest : Location} {name n : String} {es : List (String × Tree)}

/-! ### The views -/

@[simp] theorem at?_nil (t : Tree) : t.at? [] = some t := by cases t <;> rfl

@[simp] theorem at?_file_cons (contents : ByteArray) (n : String) (k : Location) :
    (file contents).at? (n :: k) = none := rfl

theorem at?_dir_cons (es : List (String × Tree)) (n : String) (k : Location) :
    (dir es).at? (n :: k) = (es.lookup n).bind (·.at? k) := rfl

theorem at?_append (t : Tree) (l k : Location) : t.at? (l ++ k) = (t.at? l).bind (·.at? k) := by
  induction l generalizing t with
  | nil => rw [List.nil_append, at?_nil, Option.bind_some]
  | cons n l ih =>
    cases t with
    | file contents => rfl
    | dir es =>
      rw [List.cons_append, at?_dir_cons, at?_dir_cons, Option.bind_assoc]
      simp only [ih]

theorem item?_dir_cons (es : List (String × Tree)) (n : String) (k : Location) :
    (dir es).item? (n :: k) = (es.lookup n).bind (·.item? k) := Option.map_bind

theorem item?_append (t : Tree) (l k : Location) :
    t.item? (l ++ k) = (t.at? l).bind (·.item? k) := by
  rw [item?, at?_append, Option.map_bind]
  rfl

theorem item?_eq_none_iff : t.item? l = none ↔ t.at? l = none := Option.map_eq_none_iff

theorem item?_of_at? (h : t.at? l = some s) : t.item? l = some s.item := by
  rw [item?, h, Option.map_some]

/-- Above what there is stand directories. -/
theorem item?_above (hway : k <+: l) (hne : k ≠ l) (h : t.item? l ≠ none) :
    t.item? k = some .dir := by
  obtain ⟨r, rfl⟩ := hway
  cases r with
  | nil => exact absurd (List.append_nil k).symm hne
  | cons n r =>
    cases hk : t.at? k with
    | none =>
      rw [item?_append, hk] at h
      exact absurd rfl h
    | some s =>
      cases s with
      | file contents =>
        rw [item?_append, hk] at h
        exact absurd rfl h
      | dir es => exact item?_of_at? hk

/-- The entry of a name set, seen from the directory. -/
theorem at?_setEntry_cons (name : String) (s? : Option Tree) (es : List (String × Tree))
    (n : String) (k : Location) : (dir (setEntry name s? es)).at? (n :: k)
      = if n = name then s?.bind (·.at? k) else (dir es).at? (n :: k) := by
  have hlookup : (setEntry name s? es).lookup n = if n = name then s? else es.lookup n := by
    cases s? with
    | none => exact Entries.lookup_erase name n es
    | some s => exact Entries.lookup_put name n s es
  rw [at?_dir_cons, hlookup, at?_dir_cons]
  split <;> rfl

theorem item?_setEntry_cons (name : String) (s? : Option Tree) (es : List (String × Tree))
    (n : String) (k : Location) : (dir (setEntry name s? es)).item? (n :: k)
      = if n = name then s?.bind (·.item? k) else (dir es).item? (n :: k) := by
  rw [item?, at?_setEntry_cons]
  split
  · exact Option.map_bind
  · rfl

/-! ### Walking -/

theorem walk_eq_ok_iff : t.walk l = .ok s ↔ t.at? l = some s ∧ ∀ n ∈ l, isTooLong n = false := by
  induction l generalizing t with
  | nil =>
    rw [walk, at?_nil]
    simp
  | cons name l ih =>
    cases t with
    | file contents => simp [walk]
    | dir es =>
      rw [walk, at?_dir_cons, List.forall_mem_cons]
      cases hlong : isTooLong name with
      | true => simp
      | false =>
        cases es.lookup name with
        | none => simp
        | some child => simpa using ih

/-! ### Making directories -/

theorem makeDirs_of_isTooLong (h : isTooLong name = true) :
    (dir es).makeDirs (name :: rest) = (.error .nameTooLong, dir es) := by rw [makeDirs, if_pos h]

/-- One step down.  A directory that is missing is made first. -/
theorem makeDirs_cons (h : isTooLong name = false) : (dir es).makeDirs (name :: rest)
    = ((((es.lookup name).getD empty).makeDirs rest).1,
      dir (setEntry name (some (((es.lookup name).getD empty).makeDirs rest).2) es)) := by
  rw [makeDirs, h]
  rfl

/-- In a directory that is made there is what was there before: nothing. -/
theorem at?_getD_empty (es : List (String × Tree)) (name n : String) (k : Location) :
    ((es.lookup name).getD empty).at? (n :: k) = (dir es).at? (name :: n :: k) := by
  rw [at?_dir_cons]
  cases es.lookup name <;> rfl

theorem at?_makeDirs (h : ¬ k <+: l) : (t.makeDirs l).2.at? k = t.at? k := by
  induction l generalizing t k with
  | nil => cases t <;> rw [makeDirs]
  | cons name l ih =>
    cases t with
    | file contents => rw [makeDirs]
    | dir es =>
      cases hlong : isTooLong name with
      | true => rw [makeDirs_of_isTooLong hlong]
      | false =>
        cases k with
        | nil => exact absurd List.nil_prefix h
        | cons n k =>
          rw [makeDirs_cons hlong, at?_setEntry_cons]
          split
          · next hn =>
            subst hn
            have hk : ¬ k <+: l := fun hk => h (List.cons_prefix_cons.mpr ⟨rfl, hk⟩)
            rw [Option.bind_some, ih hk]
            cases k with
            | nil => exact absurd List.nil_prefix hk
            | cons m k => exact at?_getD_empty es n m k
          · rfl

theorem item?_makeDirs (t : Tree) (l k : Location) : (t.makeDirs l).2.item? k = t.item? k ∨
    k <+: l ∧ t.item? k = none ∧ (t.makeDirs l).2.item? k = some .dir := by
  induction l generalizing t k with
  | nil => cases t <;> (rw [makeDirs]; exact .inl rfl)
  | cons name l ih =>
    cases t with
    | file contents => rw [makeDirs]; exact .inl rfl
    | dir es =>
      cases hlong : isTooLong name with
      | true => rw [makeDirs_of_isTooLong hlong]; exact .inl rfl
      | false =>
        cases k with
        | nil => rw [makeDirs_cons hlong]; exact .inl rfl
        | cons n k =>
          rw [makeDirs_cons hlong, item?_setEntry_cons]
          split
          · next hn =>
            subst hn
            rw [item?_dir_cons, Option.bind_some, List.cons_prefix_cons]
            cases hchild : es.lookup n with
            | some child =>
              obtain hsame | ⟨hk, hnone, hdir⟩ := ih child k
              · exact .inl hsame
              · exact .inr ⟨⟨rfl, hk⟩, hnone, hdir⟩
            | none =>
              -- all that is in the directory now has been made
              obtain hsame | ⟨hk, hnone, hdir⟩ := ih empty k
              · cases k with
                | nil => exact .inr ⟨⟨rfl, List.nil_prefix⟩, rfl, hsame⟩
                | cons m k => exact .inl hsame
              · exact .inr ⟨⟨rfl, hk⟩, rfl, hdir⟩
          · exact .inl rfl

/-! ### Changing an entry -/

/-- All that was at a location is replaced, and nothing else. -/
structure Replaced (t t' : Tree) (l : Location) (new? : Option Tree) : Prop where
  here : t'.at? l = new?
  elsewhere : ∀ k, ¬ l <+: k → t'.item? k = t.item? k

theorem modify_singleton {change : Option Tree → Except SystemError (Option Tree)}
    (hlong : isTooLong name = false) : modify change (dir es) name []
      = (change (es.lookup name)).map fun new? => dir (setEntry name new? es) := by
  rw [modify, hlong]
  cases change (es.lookup name) <;> rfl

theorem modify_cons {change : Option Tree → Except SystemError (Option Tree)} {next : String}
    (hlong : isTooLong name = false) (hchild : es.lookup name = some s) :
    modify change (dir es) name (next :: rest)
      = (modify change s next rest).map fun s' => dir (setEntry name (some s') es) := by
  rw [modify, hlong, hchild]
  show ((modify change s next rest).bind fun s' => .ok (dir (Entries.put name s' es))) = _
  cases modify change s next rest <;> rfl

/-- A change below an entry, seen from its directory. -/
theorem replaced_setEntry {s'? new? : Option Tree} (hhere : s'?.bind (·.at? rest) = new?)
    (helsewhere : ∀ k, ¬ rest <+: k → s'?.bind (·.item? k) = (es.lookup name).bind (·.item? k)) :
    Replaced (dir es) (dir (setEntry name s'? es)) (name :: rest) new? := by
  constructor
  · rw [at?_setEntry_cons, if_pos rfl, hhere]
  · intro k hk
    cases k with
    | nil => rfl
    | cons n k =>
      rw [item?_setEntry_cons]
      split
      · next hn =>
        subst hn
        rw [item?_dir_cons]
        exact helsewhere k fun hrest => hk (List.cons_prefix_cons.mpr ⟨rfl, hrest⟩)
      · rfl

theorem replaced_of_modify {change : Option Tree → Except SystemError (Option Tree)}
    (h : modify change t name rest = .ok t') :
    ∃ new?, change (t.at? (name :: rest)) = .ok new? ∧ Replaced t t' (name :: rest) new? ∧
      ∀ n ∈ name :: rest, isTooLong n = false := by
  induction rest generalizing t t' name with
  | nil =>
    cases t with
    | file contents => rw [modify] at h; cases h
    | dir es =>
      cases hlong : isTooLong name with
      | true => rw [modify, if_pos hlong] at h; cases h
      | false =>
        rw [modify_singleton hlong, map_eq_ok_iff] at h
        obtain ⟨new?, hchange, rfl⟩ := h
        have hat : (dir es).at? [name] = es.lookup name := by simp [at?_dir_cons]
        refine ⟨new?, by rw [hat, hchange], ?_, List.forall_mem_singleton.mpr hlong⟩
        exact replaced_setEntry (by simp) fun k hk => absurd List.nil_prefix hk
  | cons next rest ih =>
    cases t with
    | file contents => rw [modify] at h; cases h
    | dir es =>
      cases hlong : isTooLong name with
      | true => rw [modify, if_pos hlong] at h; cases h
      | false =>
        cases hchild : es.lookup name with
        | none => rw [modify, hlong, hchild] at h; cases h
        | some s =>
          rw [modify_cons hlong hchild, map_eq_ok_iff] at h
          obtain ⟨s', hbelow, rfl⟩ := h
          obtain ⟨new?, hchange, hreplaced, hfits⟩ := ih hbelow
          have hat : (dir es).at? (name :: next :: rest) = s.at? (next :: rest) := by
            rw [at?_dir_cons, hchild, Option.bind_some]
          refine ⟨new?, by rw [hat, hchange], ?_, List.forall_mem_cons.mpr ⟨hlong, hfits⟩⟩
          refine replaced_setEntry hreplaced.here fun k hk => ?_
          rw [hchild]
          exact hreplaced.elsewhere k hk

/-- In a directory that stands, the entry of a name can be changed. -/
theorem exists_modify {change : Option Tree → Except SystemError (Option Tree)} {new? : Option Tree}
    (hdir : t.item? (name :: rest).dropLast = some .dir)
    (hfits : ∀ n ∈ name :: rest, isTooLong n = false)
    (hchange : change (t.at? (name :: rest)) = .ok new?) :
    ∃ t', modify change t name rest = .ok t' := by
  induction rest generalizing t name with
  | nil =>
    cases t with
    | file contents => cases hdir
    | dir es =>
      have hat : (dir es).at? [name] = es.lookup name := by simp [at?_dir_cons]
      rw [modify_singleton (hfits name List.mem_cons_self), ← hat, hchange]
      exact ⟨_, rfl⟩
  | cons next rest ih =>
    cases t with
    | file contents => cases hdir
    | dir es =>
      rw [List.dropLast_cons_cons, item?_dir_cons] at hdir
      obtain ⟨child, hchild, hdir⟩ := Option.bind_eq_some_iff.mp hdir
      rw [at?_dir_cons, hchild, Option.bind_some] at hchange
      obtain ⟨hlong, hfits⟩ := List.forall_mem_cons.mp hfits
      obtain ⟨s', hs'⟩ := ih hdir hfits hchange
      rw [modify_cons hlong hchild, hs']
      exact ⟨_, rfl⟩

end Tree

end Parley.Workspace
