import Mathlib.Data.List.Forall2
import Parley.Proofs.Text.Pieces
import Parley.Provider.Remote

/-!
# Which model is called

A store is built entry by entry (`Store.ofEntries`).  What it finds are the last model bound to an
ability and the last provider given under an id (`binding?_ofEntries`, `provider?_ofEntries`), so
that `resolve_eq_ok_iff` says what any history of entries comes to: `last_given_counts`.

A model for tools that is at fault differs from one that is not bound at all, and only then chat
stands in for it (`resolveForTools_eq`).  What has been resolved can be called when the name of its
format is one of four, in letters of any case (`Resolved.remote_eq_ok_iff`).
-/

namespace Parley

/-! ### Letters of any case -/

namespace Text

/-- Whether two characters are equal or the capital and the small form of one of the letters A to
Z. -/
def SameLetter (c d : Char) : Prop :=
  c = d ∨ ('A' ≤ c ∧ c ≤ 'Z' ∧ d.toNat = c.toNat + 32) ∨
    ('A' ≤ d ∧ d ≤ 'Z' ∧ c.toNat = d.toNat + 32)

theorem isUpper_iff {c : Char} : ('A' ≤ c ∧ c ≤ 'Z') ↔ 65 ≤ c.toNat ∧ c.toNat ≤ 90 := by
  rw [Char.le_def, Char.le_def, UInt32.le_iff_toNat_le, UInt32.le_iff_toNat_le]
  rfl

theorem toNat_toLower (c : Char) :
    c.toLower.toNat = if 65 ≤ c.toNat ∧ c.toNat ≤ 90 then c.toNat + 32 else c.toNat := by
  by_cases hupper : 'A' ≤ c ∧ c ≤ 'Z'
  · have hrange := isUpper_iff.mp hupper
    have hlower : c.toLower.val = c.val + 32 := congrArg Char.val (dif_pos hupper)
    rw [if_pos hrange, Char.toNat, hlower, UInt32.toNat_add, Char.toNat_val]
    exact Nat.mod_eq_of_lt (by show c.toNat + 32 < 4294967296; omega)
  · have hlower : c.toLower = c := dif_neg hupper
    rw [isUpper_iff] at hupper
    rw [if_neg hupper, hlower]

theorem toLower_eq_iff {c d : Char} : c.toLower = d.toLower ↔ SameLetter c d := by
  rw [SameLetter, ← and_assoc, ← and_assoc, isUpper_iff, isUpper_iff, ← Char.toNat_inj,
    ← Char.toNat_inj, toNat_toLower, toNat_toLower]
  -- a code that is no capital stays, so it can only be met by the capital 32 below
  split_ifs <;> omega

/-- Texts are compared letter by letter. -/
theorem eqIgnoringAsciiCase_iff {s t : String} :
    eqIgnoringAsciiCase s t = true ↔ List.Forall₂ SameLetter s.toList t.toList := by
  have hmap : eqIgnoringAsciiCase s t = true ↔
      s.toList.map Char.toLower = t.toList.map Char.toLower := by
    rw [eqIgnoringAsciiCase, beq_iff_eq, lowerAscii, lowerAscii, String.ofList_inj]
  rw [hmap, ← List.forall₂_eq_eq_eq, List.forall₂_map_left_iff, List.forall₂_map_right_iff]
  simp only [toLower_eq_iff]

end Text

namespace Provider

/-- The names of the formats differ in more than case. -/
theorem ApiFormat.eq_of_lowerAscii_name {f g : ApiFormat}
    (h : Text.lowerAscii f.name = Text.lowerAscii g.name) : f = g := by
  cases f <;> cases g <;> first | rfl | exact absurd h (by decide)

/-- A format is found under its own name, in letters of any case. -/
theorem ApiFormat.ofName?_eq_some_iff {s : String} {f : ApiFormat} :
    ofName? s = some f ↔ List.Forall₂ Text.SameLetter f.name.toList s.toList := by
  rw [← Text.eqIgnoringAsciiCase_iff]
  constructor
  · intro h
    have hfound := List.find?_some h
    exact hfound
  · intro h
    have hmem : f ∈ all := by cases f <;> decide
    have hsome : (ofName? s).isSome = true := List.find?_isSome.mpr ⟨f, hmem, h⟩
    obtain ⟨g, hg⟩ := Option.isSome_iff_exists.mp hsome
    have hsame := List.find?_some hg
    -- both names are the one that was asked for
    rw [eq_of_lowerAscii_name ((beq_iff_eq.mp h).trans (beq_iff_eq.mp hsame).symm)]
    exact hg

/-! ### Building a store -/

/-- What a store is built from. -/
inductive Entry where
  /-- A provider. -/
  | provider (r : Record)
  /-- A model that is bound to an ability. -/
  | binding (ability : Ability) (b : Binding)
deriving DecidableEq, Repr

namespace Entry

/-- The model that an entry binds to an ability. -/
def binding? (ability : Ability) : Entry → Option Binding
  | .provider _ => none
  | .binding a b => if ability = a then some b else none

/-- The provider that an entry gives under an id. -/
def record? (id : String) : Entry → Option Record
  | .provider r => if r.id = id then some r else none
  | .binding .. => none

end Entry

/-- The model that was bound to an ability last. -/
def lastBinding? (ability : Ability) (entries : List Entry) : Option Binding :=
  (entries.filterMap (Entry.binding? ability)).getLast?

/-- The provider that was given under an id last. -/
def lastRecord? (id : String) (entries : List Entry) : Option Record :=
  (entries.filterMap (Entry.record? id)).getLast?

theorem lastBinding?_concat (ability : Ability) (entries : List Entry) (e : Entry) :
    lastBinding? ability (entries ++ [e]) =
      (e.binding? ability).or (lastBinding? ability entries) := by
  rw [lastBinding?, List.filterMap_append, List.getLast?_append]
  cases h : e.binding? ability <;> simp [h, lastBinding?]

theorem lastRecord?_concat (id : String) (entries : List Entry) (e : Entry) :
    lastRecord? id (entries ++ [e]) = (e.record? id).or (lastRecord? id entries) := by
  rw [lastRecord?, List.filterMap_append, List.getLast?_append]
  cases h : e.record? id <;> simp [h, lastRecord?]

namespace Store

/-- Add an entry. -/
def add (s : Store) : Entry → Store
  | .provider r => s.withProvider r
  | .binding ability b => s.withBinding ability b

/-- The store that is built from entries, one after the other. -/
def ofEntries (entries : List Entry) : Store := entries.foldl add empty

theorem ofEntries_concat (entries : List Entry) (e : Entry) :
    ofEntries (entries ++ [e]) = (ofEntries entries).add e := by
  rw [ofEntries, List.foldl_append]
  rfl

theorem binding?_add (s : Store) (e : Entry) (ability : Ability) :
    (s.add e).binding? ability = (e.binding? ability).or (s.binding? ability) := by
  cases e with
  | provider r => rfl
  | binding a b =>
    rw [add, binding?_withBinding, Entry.binding?]
    split <;> rfl

theorem provider?_add (s : Store) (e : Entry) (id : String) :
    (s.add e).provider? id = (e.record? id).or (s.provider? id) := by
  cases e with
  | provider r =>
    rw [add, provider?_withProvider, Entry.record?]
    split <;> rfl
  | binding a b => rfl

/-- The last model bound to an ability is found. -/
theorem binding?_ofEntries (entries : List Entry) (ability : Ability) :
    (ofEntries entries).binding? ability = lastBinding? ability entries := by
  induction entries using List.reverseRecOn with
  | nil => rfl
  | append_singleton entries e ih => rw [ofEntries_concat, binding?_add, ih, lastBinding?_concat]

/-- The last provider given under an id is found. -/
theorem provider?_ofEntries (entries : List Entry) (id : String) :
    (ofEntries entries).provider? id = lastRecord? id entries := by
  induction entries using List.reverseRecOn with
  | nil => rfl
  | append_singleton entries e ih => rw [ofEntries_concat, provider?_add, ih, lastRecord?_concat]

/-! ### Resolution -/

theorem id_of_provider? {s : Store} {id : String} {r : Record} (h : s.provider? id = some r) :
    r.id = id := by
  have hid := List.find?_some h
  exact beq_iff_eq.mp hid

theorem all_allBlank_eq_false_iff {url? : Option String} :
    url?.all Text.allBlank = false ↔ ∃ url, url? = some url ∧ Text.trim url ≠ "" := by
  cases url? with
  | none => simp
  | some url => simp [Text.trim_eq_empty_iff]

/-- A model is resolved when it is bound, its provider is known, and that has an address. -/
theorem resolve_eq_ok_iff {s : Store} {ability : Ability} {m : Resolved} :
    s.resolve ability = .ok m ↔
      ∃ b r url, s.binding? ability = some b ∧ s.provider? b.provider = some r ∧
      r.baseUrl? = some url ∧
        Text.trim url ≠ "" ∧ m = ⟨ability, b.model, r⟩ := by
  constructor
  · intro h
    unfold resolve at h
    split at h
    · cases h
    · rename_i b hb
      split at h
      · cases h
      · rename_i r hr
        split at h
        · cases h
        · rename_i haddress
          obtain ⟨url, hurl, hne⟩ := all_allBlank_eq_false_iff.mp (Bool.eq_false_iff.mpr haddress)
          exact ⟨b, r, url, hb, hr, hurl, hne, (Except.ok.inj h).symm⟩
  · rintro ⟨b, r, url, hb, hr, hurl, hne, rfl⟩
    have haddress := all_allBlank_eq_false_iff.mpr ⟨url, hurl, hne⟩
    simp only [resolve, hb, hr, haddress, Bool.false_eq_true, if_false]

theorem resolve_eq_missing_iff {s : Store} {ability a : Ability} :
    s.resolve ability = .error (.missingModel a) ↔ s.binding? ability = none ∧ a = ability := by
  rw [resolve]
  cases hb : s.binding? ability with
  | none => simp [eq_comm]
  | some b =>
    cases hr : s.provider? b.provider with
    | none => simp [hr]
    | some r => simp only [hr]; split <;> simp

/-- Chat stands in for tools when nothing is bound to tools, whatever else is at fault. -/
theorem resolveForTools_eq (s : Store) :
    s.resolveForTools = if (s.binding? .tools).isSome then s.resolve .tools
    else s.resolve .chat := by
  rw [resolveForTools]
  -- Only the failure that nothing is bound at all is told apart, and it names the ability that was
  -- asked for.
  split
  · rename_i a h
    rw [(resolve_eq_missing_iff.mp h).1]
    rfl
  · rename_i h
    cases hb : s.binding? .tools with
    | none => exact absurd (resolve_eq_missing_iff.mpr ⟨hb, rfl⟩) (h .tools)
    | some b => rfl

end Store

/-- What has been resolved can be called when its format is one of the four. -/
theorem Resolved.remote_eq_ok_iff {m : Resolved} {model : Model Net.Network} :
    m.remote = .ok model ↔
      ∃ f : ApiFormat,
      List.Forall₂ Text.SameLetter f.name.toList (Text.trim m.provider.apiFormat).toList ∧
        model = (Endpoint.ofResolved m).remote f := by
  simp only [← ApiFormat.ofName?_eq_some_iff]
  rw [remote]
  cases ApiFormat.ofName? (Text.trim m.provider.apiFormat) with
  | none => simp
  | some f => simp [eq_comm]

/-- **The last entries count.**  In a store that is built from any entries, a model is resolved
exactly when one is bound to the ability, the provider of the one that was bound last has been
given, and what was given of it last has an address that is not blank.  That model is the answer,
and that provider, under the id that it is bound by.

A turn has the model for tools when any is bound to tools, whatever is at fault with it, and
otherwise that for chat; so what it has is never a model for chat while one is bound to tools.  What
has been resolved can be called exactly when the name of its format is, up to blanks around it and
the case of letters, one of the four. -/
theorem last_given_counts (entries : List Entry) :
    (∀ ability m, (Store.ofEntries entries).resolve ability = .ok m ↔
      ∃ b r url, lastBinding? ability entries = some b ∧ lastRecord? b.provider entries = some r ∧
        r.baseUrl? = some url ∧ Text.trim url ≠ "" ∧ m = ⟨ability, b.model, r⟩) ∧
    (∀ ability m, (Store.ofEntries entries).resolve ability = .ok m →
      ∃ b, lastBinding? ability entries = some b ∧ m.model = b.model ∧ m.provider.id = b.provider ∧
        Text.trim m.baseUrl ≠ "") ∧
    ((Store.ofEntries entries).resolveForTools =
      if (lastBinding? .tools entries).isSome then (Store.ofEntries entries).resolve .tools
      else (Store.ofEntries entries).resolve .chat) ∧
    (∀ m, (Store.ofEntries entries).resolveForTools = .ok m → m.ability = .chat →
      lastBinding? .tools entries = none) ∧
    ∀ (m : Resolved) (model : Model Net.Network), m.remote = .ok model ↔
      ∃ f : ApiFormat,
      List.Forall₂ Text.SameLetter f.name.toList (Text.trim m.provider.apiFormat).toList ∧
        model = (Endpoint.ofResolved m).remote f := by
  have hresolve (ability : Ability) (m : Resolved) :
      (Store.ofEntries entries).resolve ability = .ok m ↔
      ∃ b r url, lastBinding? ability entries = some b ∧ lastRecord? b.provider entries = some r ∧
        r.baseUrl? = some url ∧ Text.trim url ≠ "" ∧ m = ⟨ability, b.model, r⟩ := by
    simp only [Store.resolve_eq_ok_iff, Store.binding?_ofEntries, Store.provider?_ofEntries]
  have htools := Store.resolveForTools_eq (Store.ofEntries entries)
  rw [Store.binding?_ofEntries] at htools
  refine ⟨hresolve, ?_, htools, ?_, fun m model => Resolved.remote_eq_ok_iff⟩
  · intro ability m h
    obtain ⟨b, r, url, hb, hr, hurl, hne, rfl⟩ := (hresolve ability m).mp h
    rw [← Store.provider?_ofEntries] at hr
    refine ⟨b, hb, rfl, Store.id_of_provider? hr, ?_⟩
    rwa [Resolved.baseUrl, hurl, Option.getD_some]
  · intro m h hchat
    rw [htools] at h
    split at h
    · obtain ⟨b, r, url, -, -, -, -, rfl⟩ := (hresolve .tools m).mp h
      cases hchat
    · rename_i hnone
      exact Option.not_isSome_iff_eq_none.mp hnone

/-- Entries for a provider that has an address only at last. -/
def movedEntries : List Entry :=
  [.binding .chat ⟨"old", "p"⟩, .provider { id := "p", apiFormat := "none" },
    .binding .tools ⟨"t", "nowhere"⟩,
    .provider { id := "p", apiFormat := " OpenAI ", baseUrl? := some "http://h" },
    .binding .chat ⟨"new", "p"⟩]

/-- Chat has the last model and the last provider, and does not stand in for a model for tools whose
provider is not known. -/
theorem last_given_counts_moved :
    ∃ m, (Store.ofEntries movedEntries).resolve .chat = .ok m ∧ m.model = "new" ∧
    m.provider.id = "p" ∧
      Text.trim m.baseUrl ≠ "" ∧ (∃ model, m.remote = .ok model) ∧
      ∀ m', (Store.ofEntries movedEntries).resolveForTools ≠ .ok m' := by
  obtain ⟨hresolve, hbound, htools, -, hremote⟩ := last_given_counts movedEntries
  have hchat := (hresolve .chat _).mpr ⟨_, _, "http://h", rfl, rfl, rfl, by decide, rfl⟩
  obtain ⟨-, -, -, -, hurl⟩ := hbound .chat _ hchat
  refine ⟨_, hchat, rfl, rfl, hurl, ⟨_, (hremote _ _).mpr ⟨.openAi, ?_, rfl⟩⟩, ?_⟩
  · exact Text.eqIgnoringAsciiCase_iff.mp (by decide)
  · intro m' h
    rw [htools] at h
    obtain ⟨b', r, url, ⟨⟩, hr, -⟩ := (hresolve .tools m').mp h
    cases hr

end Provider

end Parley
