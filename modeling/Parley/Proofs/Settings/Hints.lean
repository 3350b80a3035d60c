import Parley.Proofs.Settings.Variables

/-!
# Hints at missing settings

A message that a field is missing names the field, and the path of its table if there is one in the
message.  From both the path of the field is put together (`missingPath?_messageAt`), and the error
names the variable of that path.  A message without the path of a table leads to the variable of the
field alone (`LoadError.ofFault_missing`).

`hints_name_settings`: that variable is read as the path of the missing field, and whoever sets it
finds its text in the field, whatever else the file and the environment hold.  Only a variable that
is read later and touches the same setting could change that (`Touches`).

For this, a value that is laid over a tree at a path is found there (`valueAt?_set`), and what is
laid at a path that goes another way does not change it (`valueAt?_set_of_apart`).
-/

namespace Parley.Settings

open Entries (lookup_put put)
open Toml (Value)

/-! ### What a message tells -/

/-- The wording of a fault in the table at a path. -/
def Fault.messageAt (path : String) (f : Fault) : String := f.message ++ " for key `" ++ path ++ "`"

/-- The text before a quotation mark. -/
theorem splitOnce?_quote {s : String} (h : quote ∉ s.toList) (behind : String) :
    Text.splitOnce? quote (s ++ "`" ++ behind) = some (s, behind) := by
  have hmark : "`".toList = [quote] := by decide
  rw [Text.splitOnce?_eq_some_iff, String.toList_append, String.toList_append, hmark]
  exact ⟨by simp, h⟩

/-- A field and the path of its table are found between their quotation marks, whatever follows. -/
theorem missingPath?_messageAt {path field : String} (hpath : quote ∉ path.toList) (hne : path ≠ "")
    (hfield : quote ∉ field.toList) (behind : String) :
    missingPath? (Fault.messageAt path (.missing field) ++ behind) =
      some (path ++ "." ++ field) := by
  have hmessage : Fault.messageAt path (.missing field) ++ behind =
      "missing field `" ++ (field ++ "`" ++ (" " ++ "for key `" ++ (path ++ "`" ++ behind))) := by
    rw [Fault.messageAt, Fault.message, ← String.toList_inj]
    simp
  -- what stands between the two quoted parts does not hold the mark early
  have hkey : Text.splitOnceText? "for key `" (" " ++ "for key `" ++ (path ++ "`" ++ behind)) =
      some (" ", path ++ "`" ++ behind) := Text.splitOnceText?_append rfl (by decide) _
  have hempty : path.isEmpty = false := by rwa [← Bool.not_eq_true, String.isEmpty_iff]
  rw [hmessage, missingPath?, Text.after?_append]
  simp only [Option.bind_eq_bind, Option.bind_some, splitOnce?_quote hfield, hkey,
    splitOnce?_quote hpath, hempty]
  rfl

/-- A message that tells no table names the field alone. -/
theorem missingPath?_message {field : String} (hfield : quote ∉ field.toList) :
    missingPath? (Fault.message (.missing field)) = some field := by
  have hmessage : Fault.message (.missing field) = "missing field `" ++ (field ++ "`" ++ "") := by
    rw [Fault.message, String.append_empty, String.append_assoc]
  rw [hmessage, missingPath?, Text.after?_append]
  simp only [Option.bind_eq_bind, Option.bind_some, splitOnce?_quote hfield]
  rfl

/-- The hint is then at the variable of the field alone. -/
theorem LoadError.ofFault_missing {field : String} (hfield : quote ∉ field.toList) :
    LoadError.ofFault (.missing field) = .missingVariable (variableOf field) := by
  rw [LoadError.ofFault, missingPath?_message hfield]

/-! ### Values in a tree -/

/-- The value at a path. -/
def valueAt? : List String → Value → Option Value
  | [], v => some v
  | name :: path, v => (v.entries.lookup name).bind (valueAt? path)

theorem valueAt?_append (path path' : List String) (v : Value) :
    valueAt? (path ++ path') v = (valueAt? path v).bind (valueAt? path') := by
  induction path generalizing v with
  | nil => rfl
  | cons name path ih =>
    rw [List.cons_append, valueAt?, valueAt?]
    cases v.entries.lookup name with
    | none => rfl
    | some w => exact ih w

/-- What stands in a value does so by way of its entries. -/
theorem valueAt?_entries {path : List String} (hne : path ≠ []) (v : Value) :
    valueAt? path (.table v.entries) = valueAt? path v := by
  cases path with
  | nil => exact absurd rfl hne
  | cons name path => rfl

/-- The value of a variable is a single one. -/
theorem valueOf_ne_table (text : String) (es : List (String × Value)) :
    valueOf text ≠ .table es := by
  rw [valueOf]
  intro h
  split at h
  · cases h
  · split at h
    · cases h
    · split at h
      · cases h
      · split at h <;> cases h

namespace Tree

variable {t : Tree} {v w : Value} {name k : String} {path path' : List String}

theorem lay_eq_put (hv : ∀ es, v ≠ .table es) : lay name v t = put (Text.lower name) v t := by
  rw [lay]
  · exact hv []
  · exact hv

/-- A value that is laid over an entry leaves the others as they are. -/
theorem lookup_lay_of_ne (h : k ≠ Text.lower name) : (lay name v t).lookup k = t.lookup k := by
  rw [lay.eq_def]
  split
  · split
    · rfl
    · rw [lookup_put, if_neg h]
  · rw [lookup_put, if_neg h]
  · rw [lookup_put, if_neg h]

theorem set_cons (hne : path ≠ []) : set v (name :: path) t =
    put (Text.lower name) (.table (set v path (table (Text.lower name) t))) t := by
  rw [set]
  exact hne

/-- What is laid at a path is found there. -/
theorem valueAt?_set (hv : ∀ es, v ≠ .table es) (hne : path ≠ [])
    (hlower : ∀ n ∈ path, Text.lower n = n) :
    valueAt? path (.table (t.set v path)) = some v := by
  induction path generalizing t with
  | nil => exact absurd rfl hne
  | cons name path ih =>
    obtain ⟨hname, hpath⟩ := List.forall_mem_cons.mp hlower
    cases path with
    | nil =>
      rw [set, lay_eq_put hv, hname, valueAt?, Value.entries, lookup_put, if_pos rfl]
      rfl
    | cons name' path =>
      rw [set_cons (List.cons_ne_nil _ _), hname, valueAt?, Value.entries, lookup_put,
        if_pos rfl, Option.bind_some]
      exact ih (List.cons_ne_nil _ _) hpath

/-- What is laid at a path changes nothing at another one, unless one of them leads on from the
other. -/
theorem valueAt?_set_of_apart (h : ¬ path'.map Text.lower <+: path)
    (h' : ¬ path <+: path'.map Text.lower) :
    valueAt? path (.table (t.set w path')) = valueAt? path (.table t) := by
  induction path' generalizing path t with
  | nil => exact absurd List.nil_prefix h
  | cons name' path' ih =>
    cases path with
    | nil => exact absurd List.nil_prefix h'
    | cons name path =>
      rw [List.map_cons, List.cons_prefix_cons] at h h'
      rw [valueAt?, valueAt?, Value.entries, Value.entries]
      by_cases hname : name = Text.lower name'
      · -- both paths lead into the same table, and part there or later
        have happart : ¬ path'.map Text.lower <+: path := fun hpath => h ⟨hname.symm, hpath⟩
        have happart' : ¬ path <+: path'.map Text.lower := fun hpath => h' ⟨hname, hpath⟩
        have hne : path ≠ [] := by
          rintro rfl
          exact happart' List.nil_prefix
        have hne' : path' ≠ [] := by
          rintro rfl
          exact happart List.nil_prefix
        rw [set_cons hne', lookup_put, if_pos hname, Option.bind_some, ih happart happart',
          table, ← hname, valueAt?_entries hne]
        cases t.lookup name with
        | none => cases path with
          | nil => exact absurd rfl hne
          | cons _ _ => rfl
        | some v => rfl
      · have hlookup : (set w (name' :: path') t).lookup name = t.lookup name := by
          cases path' with
          | nil => exact lookup_lay_of_ne hname
          | cons _ _ => rw [set_cons (List.cons_ne_nil _ _), lookup_put, if_neg hname]
        rw [hlookup]

end Tree

/-! ### Variables that are set -/

/-- Whether a variable sets the setting at a path, one inside it or one around it. -/
def Touches (name : String) (path : List String) : Prop :=
  ∃ names, segments? name = some names ∧
    ((pathOf (Text.join "." names)).map Text.lower <+: path ∨
      path <+: (pathOf (Text.join "." names)).map Text.lower)

namespace Tree

variable {t : Tree} {path : List String}

theorem setVariables_append (t : Tree) (before after : List (String × String)) :
    t.setVariables (before ++ after) = (t.setVariables before).setVariables after :=
  List.foldl_append

theorem setVariables_cons_of_segments? {name text : String} {names : List String}
    (h : segments? name = some names) (after : List (String × String)) :
    t.setVariables ((name, text) :: after) =
      (t.set (valueOf text) (pathOf (Text.join "." names))).setVariables after := by
  simp only [setVariables, List.foldl_cons, h]

theorem setVariables_cons_of_none {name text : String} (h : segments? name = none)
    (after : List (String × String)) :
    t.setVariables ((name, text) :: after) = t.setVariables after := by
  simp only [setVariables, List.foldl_cons, h]

/-- Variables that do not touch a setting leave it as it is. -/
theorem valueAt?_setVariables {environment : List (String × String)}
    (h : ∀ e ∈ environment, ¬ Touches e.1 path) :
    valueAt? path (.table (t.setVariables environment)) = valueAt? path (.table t) := by
  -- each variable lays its value over the tree that the ones before it have left
  induction environment generalizing t with
  | nil => rfl
  | cons e environment ih =>
    obtain ⟨hfirst, hrest⟩ := List.forall_mem_cons.mp h
    obtain ⟨name, text⟩ := e
    cases hnames : segments? name with
    | none => rw [setVariables_cons_of_none hnames, ih hrest]
    | some names =>
      rw [setVariables_cons_of_segments? hnames, ih hrest]
      exact valueAt?_set_of_apart (fun hprefix => hfirst ⟨names, hnames, .inl hprefix⟩)
        fun hprefix => hfirst ⟨names, hnames, .inr hprefix⟩

/-- **What a variable sets.**  Its text is found at the path that it is the variable of, when no
later variable touches that setting. -/
theorem valueAt?_setVariables_variableOf (hpath : IsPath path) (before : List (String × String))
    (text : String) {after : List (String × String)} (hafter : ∀ e ∈ after, ¬ Touches e.1 path) :
    valueAt? path
      (.table (t.setVariables (before ++ (variableOf (Text.join "." path), text) :: after))) =
      some (valueOf text) := by
  rw [setVariables_append, setVariables_cons_of_segments? (segments?_variableOf hpath),
    hpath.pathOf_join, valueAt?_setVariables hafter]
  exact valueAt?_set (valueOf_ne_table text) hpath.1 fun n hn => (hpath.2 n hn).lower_eq

end Tree

/-! ### Hints -/

/-- A value of a table that has an entry is a table. -/
theorem exists_table_of_valueAt? {names : List String} {field : String} {v w : Value}
    (h : valueAt? (names ++ [field]) v = some w) :
    ∃ es, valueAt? names v = some (.table es) ∧ es.lookup field = some w := by
  rw [valueAt?_append, Option.bind_eq_some_iff] at h
  obtain ⟨u, hu, hw⟩ := h
  have hlookup : u.entries.lookup field = some w := by
    rw [valueAt?, Option.bind_eq_some_iff] at hw
    obtain ⟨w', hw', hw⟩ := hw
    rw [hw', ← Option.some.inj hw]
  cases u with
  | table es => exact ⟨es, hu, hlookup⟩
  | _ => cases hlookup

/-- A field that must be there is read when it is there. -/
theorem optional_bind_required {α : Type} {es : List (String × Value)} {field : String} {w : Value}
    (h : es.lookup field = some w) (place : Nat) (read : Value → Except Fault α) :
    (optional (.table es) place field read >>= required (.table es) field) = read w := by
  have hfield : field? (.table es) place field = .ok (some w) := congrArg Except.ok h
  rw [optional, hfield]
  show (read w >>= fun a => pure (some a)) >>= required (.table es) field = _
  cases read w <;> rfl

/-- **Hints name the variable that is missing.**  A message that a field is missing in the table at
a path leads to the path of the field, and the variable of that path is read as the names of the
path and the field; different paths have different variables.  Whoever sets this variable, with
whatever else there is, finds its text in the field when the table is read, provided that no later
variable touches the field. -/
theorem hints_name_settings {names : List String} {field : String} (hnames : IsPath names)
    (hfield : IsName field) :
    missingPath? (Fault.messageAt (Text.join "." names) (.missing field)) =
        some (Text.join "." names ++ "." ++ field) ∧
      segments? (variableOf (Text.join "." names ++ "." ++ field)) = some (names ++ [field]) ∧
      Set.InjOn variableOf {path | ∃ names, IsPath names ∧ path = Text.join "." names} ∧
      ∀ (t : Tree) (before after : List (String × String)) (text : String),
        (∀ e ∈ after, ¬ Touches e.1 (names ++ [field])) →
        let environment :=
          before ++ (variableOf (Text.join "." names ++ "." ++ field), text) :: after
        ∃ es, valueAt? names (.table (t.setVariables environment)) = some (.table es) ∧
          ∀ (α : Type) (place : Nat) (read : Value → Except Fault α),
            (optional (.table es) place field read >>= required (.table es) field) =
              read (valueOf text) := by
  have hpath := hnames.concat hfield
  rw [← hnames.join_concat field]
  refine ⟨?_, segments?_variableOf hpath, injOn_variableOf, fun t before after text hafter => ?_⟩
  · have hmessage :=
      missingPath?_messageAt hnames.quote_not_mem hnames.join_ne_empty hfield.quote_not_mem ""
    rwa [String.append_empty, ← hnames.join_concat field] at hmessage
  · have hvalue := Tree.valueAt?_setVariables_variableOf (t := t) hpath before text hafter
    obtain ⟨es, htable, hlookup⟩ := exists_table_of_valueAt? hvalue
    exact ⟨es, htable, fun α place read => optional_bind_required hlookup place read⟩

/-- The table of a host lacks its format, an address is set before the format and a key after it. -/
theorem hints_name_settings_host :
    missingPath? "missing field `api_format` for key `providers.my_host2`" =
      some "providers.my_host2.api_format" ∧
      variableOf "providers.my_host2.api_format" = "CONDUIT_PROVIDERS__MY_HOST2__API_FORMAT" ∧
      segments? "CONDUIT_PROVIDERS__MY_HOST2__API_FORMAT" =
        some ["providers", "my_host2", "api_format"] ∧
      ∃ es, valueAt? ["providers", "my_host2"] (.table (defaults.setVariables
          [("CONDUIT_PROVIDERS__MY_HOST2__BASE_URL", "http://h"),
            ("CONDUIT_PROVIDERS__MY_HOST2__API_FORMAT", "ollama"),
            ("CONDUIT_PROVIDERS__MY_HOST2__API_KEY", "k")])) = some (.table es) ∧
        (optional (.table es) 0 "api_format" text >>= required (.table es) "api_format") =
          .ok "ollama" := by
  have hpath : Text.join "." ["providers", "my_host2"] = "providers.my_host2" := by decide +kernel
  have hvariable : variableOf ("providers.my_host2" ++ "." ++ "api_format") =
      "CONDUIT_PROVIDERS__MY_HOST2__API_FORMAT" := by decide +kernel
  have hkey : ∀ e ∈ [("CONDUIT_PROVIDERS__MY_HOST2__API_KEY", "k")],
      ¬ Touches e.1 (["providers", "my_host2"] ++ ["api_format"]) := by
    rw [List.forall_mem_singleton]
    rintro ⟨names, hnames, hprefix⟩
    have hsegments :
        segments? "CONDUIT_PROVIDERS__MY_HOST2__API_KEY" =
          some ["providers", "my_host2", "api_key"] := by
      decide +kernel
    rw [hsegments, Option.some_inj] at hnames
    subst hnames
    revert hprefix
    decide +kernel
  have hnames : IsPath ["providers", "my_host2"] := by decide +kernel
  have hfield : IsName "api_format" := by decide +kernel
  obtain ⟨hhint, hsegments, -, hset⟩ := hints_name_settings hnames hfield
  obtain ⟨es, htable, hread⟩ :=
    hset defaults [("CONDUIT_PROVIDERS__MY_HOST2__BASE_URL", "http://h")] _ "ollama" hkey
  -- the texts of the theorem, computed
  rw [hpath] at hhint hsegments htable
  rw [hvariable] at hsegments htable
  exact ⟨hhint, hvariable, hsegments, es, htable, (hread String 0 text).trans (by decide +kernel)⟩

end Parley.Settings
