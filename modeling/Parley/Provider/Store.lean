import Parley.Json.Record
import Parley.Provider.Ability
import Parley.Text.Blank

/-!
# Which model does what

A `Store` knows providers and which model of which provider is bound to an ability.  Of several
entries for one id or one ability the last given counts.  `Store.resolve` finds the model for an
ability together with its provider, or says what is missing; `Store.resolveForTools` finds the model
of a turn.
-/

namespace Parley.Provider

/-! ### Entries -/

/-- A provider.  The name of its format is free text here, which is read when a model is called. -/
structure Record where
  /-- What bindings refer to. -/
  id : String
  /-- The name of the format that it speaks. -/
  apiFormat : String
  /-- Where it is. -/
  baseUrl? : Option String := none
  /-- The secret that calls carry. -/
  apiKey? : Option String := none
  /-- The limit on the length of an answer. -/
  maxTokens? : Option Nat := none
  /-- Further headers of calls, in ascending order of name. -/
  headers : List (String × String) := []
deriving DecidableEq, Repr

/-- A model of a provider. -/
structure Binding where
  /-- The name of the model. -/
  model : String
  /-- The id of the provider. -/
  provider : String
deriving DecidableEq, Repr

namespace Record

/-- A provider as a value. -/
def toJson (r : Record) : Json :=
  .object [("id", .str r.id), ("api_format", .str r.apiFormat),
    ("base_url", Json.ofOption .str r.baseUrl?), ("api_key", Json.ofOption .str r.apiKey?),
    ("max_tokens", Json.ofOption Json.nat r.maxTokens?),
    ("headers", .object (r.headers.map fun (k, v) => (k, .str v)))]

/-- A natural number of 32 bits. -/
def nat32? (v : Json) : Option Nat := v.nat64?.filter (Word.holds 32)

/-- Read a provider. -/
def ofJson? (v : Json) : Option Record := do
  guard (v.isRecord 6)
  return {
    id := ← Json.required (v.field? 0 "id") Json.str?
    apiFormat := ← Json.required (v.field? 1 "api_format") Json.str?
    baseUrl? := ← Json.optional (v.field? 2 "base_url") Json.str?
    apiKey? := ← Json.optional (v.field? 3 "api_key") Json.str?
    maxTokens? := ← Json.optional (v.field? 4 "max_tokens") nat32?
    headers := ← Json.defaulted (v.field? 5 "headers") [] (Json.mapOf? Json.str?) }

end Record

/-- Read a binding. -/
def Binding.ofJson? (v : Json) : Option Binding := do
  guard (v.isRecord 2)
  return ⟨← Json.required (v.field? 0 "model") Json.str?,
    ← Json.required (v.field? 1 "provider") Json.str?⟩

/-! ### Errors -/

/-- Why no model can be called.  This is found out before any call. -/
inductive SelectionError where
  /-- No model is bound to the ability. -/
  | missingModel (ability : Ability)
  /-- The provider has no address. -/
  | missingBaseUrl (provider : String)
  /-- The provider cannot be loaded. -/
  | unavailable (provider reason : String)
  /-- The provider speaks an unknown format. -/
  | unsupportedFormat (provider apiFormat : String)
deriving DecidableEq, Repr

/-- The wording of an error. -/
def SelectionError.message : SelectionError → String
  | .missingModel ability => "No model is configured for ability '" ++ ability.name ++ "'"
  | .missingBaseUrl provider => "Provider '" ++ provider ++ "' has no base url"
  | .unavailable provider reason =>
    "Provider '" ++ provider ++ "' could not be loaded: " ++ reason
  | .unsupportedFormat provider apiFormat =>
    "Provider '" ++ provider ++ "' uses unsupported api format '" ++ apiFormat ++ "'"

/-! ### The store -/

/-- Providers and bindings, the last given first. -/
structure Store where
  /-- The providers. -/
  providers : List Record := []
  /-- The models bound to abilities. -/
  bindings : List (Ability × Binding) := []
deriving DecidableEq, Repr

namespace Store

/-- The store without entries. -/
def empty : Store := {}

/-- Add a provider, which replaces one of the same id. -/
def withProvider (s : Store) (r : Record) : Store := { s with providers := r :: s.providers }

/-- Bind a model to an ability, in place of the model bound to it before. -/
def withBinding (s : Store) (a : Ability) (b : Binding) : Store :=
  { s with bindings := (a, b) :: s.bindings }

/-- The model bound to an ability. -/
def binding? (s : Store) (a : Ability) : Option Binding := s.bindings.lookup a

/-- The provider with an id. -/
def provider? (s : Store) (id : String) : Option Record := s.providers.find? (·.id == id)

@[simp] theorem binding?_withProvider (s : Store) (r : Record) (a : Ability) :
    (s.withProvider r).binding? a = s.binding? a := rfl

@[simp] theorem provider?_withBinding (s : Store) (a : Ability) (b : Binding) (id : String) :
    (s.withBinding a b).provider? id = s.provider? id := rfl

/-- The last model bound to an ability counts. -/
theorem binding?_withBinding (s : Store) (a a' : Ability) (b : Binding) :
    (s.withBinding a b).binding? a' = if a' = a then some b else s.binding? a' := by
  by_cases h : a' = a
  · simp [withBinding, binding?, h]
  · rw [withBinding, binding?, List.lookup_cons, beq_eq_false_iff_ne.2 h, if_neg h]
    rfl

/-- The last provider with an id counts. -/
theorem provider?_withProvider (s : Store) (r : Record) (id : String) :
    (s.withProvider r).provider? id = if r.id = id then some r else s.provider? id := by
  by_cases h : r.id = id <;> simp [withProvider, provider?, h]

end Store

/-! ### Resolution -/

/-- A model that can be called, and where. -/
structure Resolved where
  /-- What it was picked for. -/
  ability : Ability
  /-- The name of the model. -/
  model : String
  /-- Its provider. -/
  provider : Record
deriving DecidableEq, Repr

/-- The address of the provider. -/
def Resolved.baseUrl (r : Resolved) : String := r.provider.baseUrl?.getD ""

namespace Store

/-- The model for an ability.  Its provider must be known and have an address that is not blank. -/
def resolve (s : Store) (ability : Ability) : Except SelectionError Resolved :=
  match s.binding? ability with
  | none => .error (.missingModel ability)
  | some b =>
    match s.provider? b.provider with
    | none => .error (.unavailable b.provider ("unknown provider '" ++ b.provider ++ "'"))
    | some r =>
      if r.baseUrl?.all Text.allBlank then .error (.missingBaseUrl r.id)
      else .ok ⟨ability, b.model, r⟩

/-- The model for a turn: the one bound to tools, and the one bound to chat when none is.  A model
for tools whose provider is at fault is not passed over. -/
def resolveForTools (s : Store) : Except SelectionError Resolved :=
  match s.resolve .tools with
  | .error (.missingModel _) => s.resolve .chat
  | answer => answer

end Store

end Parley.Provider
