import Mathlib.Data.List.Nodup
import Parley.Proofs.Agent.Sample
import Parley.Proofs.Json.Members
import Parley.Provider.Remote

/-!
# Names that are advertised

Models are told about tools by name, and call them by the names they were told.  What they are told
goes through four formats, and in each of them names are sanitized, so that two names might become
one.

* `exists_ofList_iff`: a registry takes tools with valid names that differ from each other.
* `advertises_specIn`: in every format, the tools of a registry are listed one by one, under the
  names that the registry finds them by.
* `exists_functions_error_iff`: a list of functions is refused exactly when two names become equal.
* `map_offered_payload`: a request offers the tools that its format lists, and nothing else.

Where valid names go, sanitizing changes nothing, so that the names of a registry stay different.
-/

namespace Parley

open Chat (Message ToolCall ToolSchema)
open Provider (ApiFormat Endpoint)
open Wire (Failure Options functionSpec functions functionsAfter)

variable {σ : Type} {name : String}

/-! ### Valid names -/

namespace Tool

/-- The characters a to z, A to Z, 0 to 9, underscore and hyphen. -/
def IsNameChar (c : Char) : Prop :=
  ('a' ≤ c ∧ c ≤ 'z') ∨ ('A' ≤ c ∧ c ≤ 'Z') ∨ ('0' ≤ c ∧ c ≤ '9') ∨ c = '_' ∨ c = '-'

theorem isNameChar_iff {c : Char} : isNameChar c = true ↔ IsNameChar c := by
  have hupper : c.isUpper = decide ('A' ≤ c ∧ c ≤ 'Z') := rfl
  have hlower : c.isLower = (decide ('a' ≤ c) && decide (c ≤ 'z')) := rfl
  have hdigit : c.isDigit = (decide ('0' ≤ c) && decide (c ≤ '9')) := rfl
  have halphanum : c.isAlphanum = (c.isUpper || c.isLower || c.isDigit) := rfl
  simp only [isNameChar, halphanum, hupper, hlower, hdigit, Bool.or_eq_true, Bool.and_eq_true,
    decide_eq_true_eq, IsNameChar, or_assoc]
  exact or_left_comm

theorem isValidName_iff :
    isValidName name = true ↔ name ≠ "" ∧ ∀ c ∈ name.toList, IsNameChar c := by
  simp [isValidName, isNameChar_iff]

end Tool

open Tool (isValidName sanitizeName sanitizeName_of_isValidName)

/-! ### Registries -/

theorem Registry.ofList_eq_ok_iff {tools : List (Tool σ)} {r : Registry σ} :
    Registry.ofList tools = .ok r ↔ r.tools = tools := by
  constructor
  · intro h
    unfold Registry.ofList at h
    split at h
    · cases h
    · cases h
      rfl
  · rintro rfl
    obtain ⟨tools, index, hindex⟩ := r
    unfold Registry.ofList
    split
    · next hrefused =>
      rw [hindex] at hrefused
      cases hrefused
    · next hindex' =>
      rw [hindex] at hindex'
      cases hindex'
      rfl

theorem exists_ofList_iff (tools : List (Tool σ)) : (∃ r, Registry.ofList tools = .ok r) ↔
    (∀ t ∈ tools, t.name ≠ "" ∧ ∀ c ∈ t.name.toList, Tool.IsNameChar c) ∧
    (tools.map Tool.name).Nodup := by
  have hregister := Tool.exists_register_iff 0 [] tools
  simp only [Tool.isValidName_iff, List.lookup_nil, implies_true, and_true] at hregister
  rw [← hregister]
  constructor
  · rintro ⟨r, hr⟩
    obtain rfl := Registry.ofList_eq_ok_iff.mp hr
    exact ⟨r.index, r.registered⟩
  · rintro ⟨index, hindex⟩
    exact ⟨⟨tools, index, hindex⟩, Registry.ofList_eq_ok_iff.mpr rfl⟩

/-! ### Functions -/

theorem functionsAfter_cons_of_mem {seen : List String} {t : ToolSchema}
    (h : sanitizeName t.name ∈ seen) (rest : List ToolSchema) :
    functionsAfter seen (t :: rest) =
      .error (.invalidRequest ("Duplicate tool name: " ++ t.name)) :=
  if_pos (List.contains_iff_mem.mpr h)

theorem functionsAfter_cons_of_not_mem {seen : List String} {t : ToolSchema}
    (h : sanitizeName t.name ∉ seen) (rest : List ToolSchema) : functionsAfter seen (t :: rest) =
      (functionsAfter (sanitizeName t.name :: seen) rest).map (functionSpec t :: ·) :=
  if_neg (mt List.contains_iff_mem.mp h)

/-- **Functions with different names** that have not come before are listed. -/
theorem functionsAfter_eq_ok {seen : List String} {tools : List ToolSchema}
    (hnew : ∀ t ∈ tools, sanitizeName t.name ∉ seen)
    (hdistinct : (tools.map fun t => sanitizeName t.name).Nodup) :
    functionsAfter seen tools = .ok (tools.map functionSpec) := by
  induction tools generalizing seen with
  | nil => rfl
  | cons t rest ih =>
    obtain ⟨ht, hrest⟩ := List.forall_mem_cons.mp hnew
    rw [List.map_cons, List.nodup_cons] at hdistinct
    obtain ⟨hfirst, hdistinct⟩ := hdistinct
    have hnew : ∀ u ∈ rest, sanitizeName u.name ∉ sanitizeName t.name :: seen := by
      intro u hu hseen
      obtain hsame | hseen := List.mem_cons.mp hseen
      · exact hfirst (List.mem_map.mpr ⟨u, hu, hsame⟩)
      · exact hrest u hu hseen
    rw [functionsAfter_cons_of_not_mem ht, ih hnew hdistinct]
    rfl

/-- Where a list of functions is not refused, their names differ and have not come before. -/
theorem distinct_of_functionsAfter {seen : List String} {tools : List ToolSchema}
    {specs : List Json} (h : functionsAfter seen tools = .ok specs) :
    (∀ t ∈ tools, sanitizeName t.name ∉ seen) ∧
      (tools.map fun t => sanitizeName t.name).Nodup := by
  induction tools generalizing seen specs with
  | nil => exact ⟨List.forall_mem_nil _, List.nodup_nil⟩
  | cons t rest ih =>
    by_cases ht : sanitizeName t.name ∈ seen
    · rw [functionsAfter_cons_of_mem ht] at h
      cases h
    · rw [functionsAfter_cons_of_not_mem ht] at h
      cases hrest : functionsAfter (sanitizeName t.name :: seen) rest with
      | error e => rw [hrest] at h; cases h
      | ok specs =>
        obtain ⟨hnew, hdistinct⟩ := ih hrest
        refine ⟨List.forall_mem_cons.mpr ⟨ht, fun u hu => List.not_mem_of_not_mem_cons (hnew u hu)⟩,
          ?_⟩
        rw [List.map_cons, List.nodup_cons]
        refine ⟨fun hmem => ?_, hdistinct⟩
        obtain ⟨u, hu, hsame⟩ := List.mem_map.mp hmem
        exact hnew u hu (hsame ▸ List.mem_cons_self)

theorem functions_eq_ok_iff {tools : List ToolSchema} {specs : List Json} :
    functions tools = .ok specs ↔
    (tools.map fun t => sanitizeName t.name).Nodup ∧ specs = tools.map functionSpec := by
  constructor
  · intro h
    have hdistinct := (distinct_of_functionsAfter h).2
    have hspecs := functionsAfter_eq_ok (fun t _ => List.not_mem_nil) hdistinct
    exact ⟨hdistinct, Except.ok.inj (h.symm.trans hspecs)⟩
  · rintro ⟨hdistinct, rfl⟩
    exact functionsAfter_eq_ok (fun t _ => List.not_mem_nil) hdistinct

/-- **Functions are refused** exactly when two of them get the same name. -/
theorem exists_functions_error_iff (tools : List ToolSchema) : (∃ e, functions tools = .error e) ↔
    ∃ (i j : Nat) (s t : ToolSchema), i < j ∧ tools[i]? = some s ∧ tools[j]? = some t ∧
      sanitizeName s.name = sanitizeName t.name := by
  have hrefused : (∃ e, functions tools = .error e) ↔
      ¬ (tools.map fun t => sanitizeName t.name).Nodup := by
    cases hspecs : functions tools with
    | error e =>
      refine iff_of_true ⟨e, rfl⟩ fun hdistinct => ?_
      rw [functions_eq_ok_iff.mpr ⟨hdistinct, rfl⟩] at hspecs
      cases hspecs
    | ok specs =>
      refine iff_of_false ?_ (not_not.mpr (functions_eq_ok_iff.mp hspecs).1)
      rintro ⟨e, ⟨⟩⟩
  rw [hrefused, List.nodup_iff_getElem?_ne_getElem?]
  push Not
  simp only [List.getElem?_map, List.length_map]
  constructor
  · rintro ⟨i, j, hij, hj, hsame⟩
    rw [List.getElem?_eq_getElem hj, Option.map_some, Option.map_eq_some_iff] at hsame
    obtain ⟨s, hs, hsame⟩ := hsame
    exact ⟨i, j, s, tools[j], hij, hs, List.getElem?_eq_getElem hj, hsame⟩
  · rintro ⟨i, j, s, t, hij, hs, ht, hsame⟩
    obtain ⟨hj, -⟩ := List.getElem?_eq_some_iff.mp ht
    exact ⟨i, j, hij, hj, by rw [hs, ht, Option.map_some, Option.map_some, hsame]⟩

/-! ### Formats -/

/-- The tools of a list, as a format describes them. -/
def specsIn : ApiFormat → List ToolSchema → Except Failure (List Json)
  | .openAi, tools | .ollama, tools => functions tools
  | .anthropic, tools => .ok (Wire.Anthropic.tools tools)
  | .gemini, tools => .ok (Wire.Gemini.tools tools)

/-- A tool, as a format describes it. -/
def specIn : ApiFormat → ToolSchema → Json
  | .openAi, t | .ollama, t => functionSpec t
  | .anthropic, t => Wire.Anthropic.toolSpec t
  | .gemini, t => Wire.Gemini.toolSpec t

/-- What a format describes a tool by. -/
def described : ApiFormat → Json → Json
  | .openAi, spec | .ollama, spec => spec.member "function"
  | .anthropic, spec | .gemini, spec => spec

/-- The name of the parameters in a format. -/
def parametersName : ApiFormat → String
  | .anthropic => "input_schema"
  | .openAi | .gemini | .ollama => "parameters"

/-- **A tool is advertised** by its own name, and calls by this name reach that very tool, which
keeps its say on confirmation. -/
structure Advertises (f : ApiFormat) (r : Registry σ) (t : Tool σ) (spec : Json) : Prop where
  named : (described f spec).member "name" = .str t.name
  told : (described f spec).member "description" = .str t.schema.description
  parameters : (described f spec).member (parametersName f) = t.schema.parameters
  found : r.lookup t.name = some t
  confirmed : ∀ (a : Agent σ) (call : ToolCall), a.registry = r → call.name = t.name →
    a.needsConfirmation call = t.requiresConfirmation

theorem specsIn_catalogue (f : ApiFormat) (r : Registry σ) :
    specsIn f r.catalogue = .ok (r.catalogue.map (specIn f)) := by
  have hnames : (r.catalogue.map fun t => sanitizeName t.name) = r.tools.map Tool.name := by
    rw [Registry.catalogue, List.map_map]
    apply List.map_congr_left
    intro t ht
    exact sanitizeName_of_isValidName (r.valid t ht)
  have hfunctions : functions r.catalogue = .ok (r.catalogue.map functionSpec) :=
    functions_eq_ok_iff.mpr ⟨hnames ▸ r.distinct, rfl⟩
  cases f with
  | openAi => exact hfunctions
  | ollama => exact hfunctions
  | anthropic => rfl
  | gemini => rfl

theorem advertises_specIn (f : ApiFormat) {r : Registry σ} {t : Tool σ} (ht : t ∈ r.tools) :
    Advertises f r t (specIn f t.schema) := by
  have hname : sanitizeName t.schema.name = t.name := sanitizeName_of_isValidName (r.valid t ht)
  have hfound : r.lookup t.name = some t := Registry.lookup_eq_some_iff.mpr ⟨ht, rfl⟩
  refine ⟨?_, ?_, ?_, hfound, ?_⟩
  · cases f <;> (rw [← hname]; rfl)
  · cases f <;> rfl
  · cases f <;> rfl
  · rintro a call rfl hcall
    rw [Agent.needsConfirmation, hcall, hfound]
    rfl

/-! ### Requests -/

/-- The payload of a chat request in a format. -/
def payload (f : ApiFormat) (e : Endpoint) (history : List Message) (tools : List ToolSchema)
    (options : Options) (streamed : Bool) : Except Failure Json :=
  match f with
  | .openAi => Wire.OpenAi.chatPayload e.model e.maxTokens? history tools options streamed
  | .anthropic =>
    .ok (Wire.Anthropic.chatPayload e.model e.maxTokens? history tools options streamed)
  | .gemini => .ok (Wire.Gemini.chatPayload e.maxTokens? history tools options)
  | .ollama => Wire.Ollama.chatPayload e.model e.maxTokens? history tools options streamed

/-- The tools that a payload offers. -/
def offered (f : ApiFormat) (payload : Json) : List Json :=
  let entries := ((payload.member "tools").items?).getD []
  match f with
  | .gemini => entries.flatMap fun t => ((t.member "functionDeclarations").items?).getD []
  | .openAi | .anthropic | .ollama => entries

section Members

variable {k : String} {before after others : List (String × Json)}

theorem member_append_of_ne (h : ∀ e ∈ after, e.1 ≠ name) :
    (Json.object (before ++ after)).member name = (Json.object before).member name := by
  have hnone : after.reverse.lookup name = none := by
    rw [List.lookup_eq_none_iff]
    intro e he
    simpa using (h e (List.mem_reverse.mp he)).symm
  rw [Json.member_object, Json.member_object, List.reverse_append, List.lookup_append, hnone,
    Option.none_or]

theorem member_append_cons (h : ∀ e ∈ after, e.1 ≠ name) (v : Json) :
    (Json.object (before ++ (name, v) :: after)).member name = v := by
  rw [List.append_cons, member_append_of_ne h, Json.member_object, List.reverse_append,
    List.reverse_singleton, List.singleton_append, List.lookup_cons_self, Option.getD_some]

theorem ne_of_mem_singleton (hk : k ≠ name) (v : Json) : ∀ e ∈ [(k, v)], e.1 ≠ name :=
  List.forall_mem_singleton.mpr hk

theorem ne_of_mem_member? {α : Type} (hk : k ≠ name) (write : α → Json) (a? : Option α) :
    ∀ e ∈ Json.member? k write a?, e.1 ≠ name := by
  cases a? with
  | none => exact List.forall_mem_nil _
  | some a => exact ne_of_mem_singleton hk _

theorem ne_of_mem_ite {c : Bool} (hafter : ∀ e ∈ after, e.1 ≠ name)
    (hothers : ∀ e ∈ others, e.1 ≠ name) :
    ∀ e ∈ (if c then after else others), e.1 ≠ name := by
  cases c with
  | false => exact hothers
  | true => exact hafter

end Members

theorem map_offered_openAi (model : String) (maxTokens? : Option Nat) (history : List Message)
    (tools : List ToolSchema) (options : Options) (streamed : Bool) :
    (Wire.OpenAi.chatPayload model maxTokens? history tools options streamed).map
      (offered .openAi) =
      functions tools := by
  have hstreamed : ∀ e ∈ (if streamed then [("stream", Json.bool true)] else []), e.1 ≠ "tools" :=
    ne_of_mem_ite (ne_of_mem_singleton (by decide) _) (List.forall_mem_nil _)
  have hlimit : ∀ e ∈ Json.member? "max_tokens" Json.nat maxTokens?, e.1 ≠ "tools" :=
    ne_of_mem_member? (by decide) _ _
  have htemperature : ∀ e ∈ Json.member? "temperature" Floating.Single.toJson options.temperature?,
      e.1 ≠ "tools" := ne_of_mem_member? (by decide) _ _
  unfold Wire.OpenAi.chatPayload
  cases tools with
  | nil =>
    show Except.ok (offered .openAi (Json.object ([_, _] ++ [] ++ _ ++ _ ++ _))) = _
    rw [offered, member_append_of_ne hstreamed, member_append_of_ne hlimit,
      member_append_of_ne htemperature]
    rfl
  | cons t rest =>
    cases functions (t :: rest) with
    | error e => rfl
    | ok specs =>
      show Except.ok (offered .openAi (Json.object ([_, _] ++ [_, _] ++ _ ++ _ ++ _))) = _
      rw [offered, member_append_of_ne hstreamed, member_append_of_ne hlimit,
        member_append_of_ne htemperature]
      rfl

theorem map_offered_ollama (model : String) (maxTokens? : Option Nat) (history : List Message)
    (tools : List ToolSchema) (options : Options) (streamed : Bool) :
    (Wire.Ollama.chatPayload model maxTokens? history tools options streamed).map
      (offered .ollama) =
      functions tools := by
  unfold Wire.Ollama.chatPayload
  cases tools with
  | nil =>
    show Except.ok (offered .ollama (Json.object ([_, _, _] ++ [] ++ _))) = _
    rw [offered,
      member_append_of_ne
        (ne_of_mem_ite (List.forall_mem_nil _) (ne_of_mem_singleton (by decide) _))]
    rfl
  | cons t rest =>
    cases functions (t :: rest) with
    | error e => rfl
    | ok specs =>
      show Except.ok (offered .ollama (Json.object ([_, _, _] ++ [_] ++ _))) = _
      rw [offered,
        member_append_of_ne
          (ne_of_mem_ite (List.forall_mem_nil _) (ne_of_mem_singleton (by decide) _))]
      rfl

theorem offered_anthropic (model : String) (maxTokens? : Option Nat) (history : List Message)
    (tools : List ToolSchema) (options : Options) (streamed : Bool) :
    offered .anthropic
      (Wire.Anthropic.chatPayload model maxTokens? history tools options streamed) =
      Wire.Anthropic.tools tools := by
  have hstreamed : ∀ e ∈ (if streamed then [("stream", Json.bool true)] else []), e.1 ≠ "tools" :=
    ne_of_mem_ite (ne_of_mem_singleton (by decide) _) (List.forall_mem_nil _)
  have htemperature : ∀ e ∈ Json.member? "temperature" Floating.Single.toJson options.temperature?,
      e.1 ≠ "tools" := ne_of_mem_member? (by decide) _ _
  unfold Wire.Anthropic.chatPayload
  dsimp only
  rw [offered, member_append_of_ne hstreamed, member_append_of_ne htemperature]
  cases tools with
  | nil =>
    rw [if_pos List.isEmpty_nil, List.append_nil,
      member_append_of_ne (ne_of_mem_member? (by decide) _ _)]
    rfl
  | cons t rest =>
    rw [List.isEmpty_cons, if_neg Bool.false_ne_true,
      member_append_cons (ne_of_mem_member? (by decide) _ _)]
    rfl

theorem offered_gemini (maxTokens? : Option Nat) (history : List Message) (tools : List ToolSchema)
    (options : Options) :
    offered .gemini (Wire.Gemini.chatPayload maxTokens? history tools options) =
      Wire.Gemini.tools tools := by
  unfold Wire.Gemini.chatPayload
  dsimp only
  rw [offered,
    member_append_of_ne (ne_of_mem_ite (List.forall_mem_nil _) (ne_of_mem_singleton (by decide) _))]
  cases tools with
  | nil =>
    rw [if_pos List.isEmpty_nil, List.append_nil,
      member_append_of_ne (ne_of_mem_member? (by decide) _ _)]
    rfl
  | cons t rest =>
    rw [List.isEmpty_cons, if_neg Bool.false_ne_true,
      member_append_cons (ne_of_mem_singleton (by decide) _)]
    show (Json.arr _).items?.getD [] ++ [] = _
    rw [List.append_nil]
    rfl

/-- **A request offers the tools that its format lists**, and is not made where they are refused. -/
theorem map_offered_payload (f : ApiFormat) (e : Endpoint) (history : List Message)
    (tools : List ToolSchema) (options : Options) (streamed : Bool) :
    (payload f e history tools options streamed).map (offered f) = specsIn f tools := by
  cases f with
  | openAi => exact map_offered_openAi _ _ _ _ _ _
  | ollama => exact map_offered_ollama _ _ _ _ _ _
  | anthropic => exact congrArg Except.ok (offered_anthropic _ _ _ _ _ _)
  | gemini => exact congrArg Except.ok (offered_gemini _ _ _ _)

/-! ### Names reach their tools -/

/-- **Advertised names reach the tools they were advertised for.**  A registry takes tools with
valid and different names; it finds each tool by its name and nothing else.  In every format its
tools are listed one by one under these names, and a request offers just this list.  Other lists of
functions are refused exactly when two names become equal. -/
theorem advertised_names_reach_tools (tools : List (Tool σ)) :
    ((∃ r, Registry.ofList tools = .ok r) ↔
      (∀ t ∈ tools, t.name ≠ "" ∧ ∀ c ∈ t.name.toList, Tool.IsNameChar c) ∧
      (tools.map Tool.name).Nodup) ∧
    (∀ r, Registry.ofList tools = .ok r →
      (∀ name t, r.lookup name = some t ↔ t ∈ tools ∧ t.name = name) ∧
      (∀ name, r.lookup name = none ↔ ∀ t ∈ tools, t.name ≠ name) ∧
      ∀ f, ∃ specs, specsIn f r.catalogue = .ok specs ∧ List.Forall₂ (Advertises f r) tools specs ∧
        ∀ e history options streamed, ∃ sent,
          payload f e history r.catalogue options streamed = .ok sent ∧ offered f sent = specs) ∧
    ∀ schemas : List ToolSchema, (∃ e, functions schemas = .error e) ↔
      ∃ (i j : Nat) (s t : ToolSchema), i < j ∧ schemas[i]? = some s ∧ schemas[j]? = some t ∧
        sanitizeName s.name = sanitizeName t.name := by
  refine ⟨exists_ofList_iff tools, fun r hr => ?_, exists_functions_error_iff⟩
  obtain rfl := Registry.ofList_eq_ok_iff.mp hr
  refine ⟨fun name t => Registry.lookup_eq_some_iff, fun name => Registry.lookup_eq_none_iff,
    fun f => ?_⟩
  have hspecs := specsIn_catalogue f r
  refine ⟨_, hspecs, ?_, fun e history options streamed => ?_⟩
  · rw [Registry.catalogue, List.map_map, List.forall₂_map_right_iff, List.forall₂_same]
    exact fun t ht => advertises_specIn f ht
  · have hoffered := map_offered_payload f e history r.catalogue options streamed
    rw [hspecs] at hoffered
    cases hsent : payload f e history r.catalogue options streamed with
    | error failure => rw [hsent] at hoffered; cases hoffered
    | ok sent =>
      rw [hsent] at hoffered
      exact ⟨sent, rfl, Except.ok.inj hoffered⟩

/-- `rm` is found by its name, also where it was told of, and still requires confirmation. -/
theorem advertised_names_reach_rm :
    let r := Agent.Sample.registry
    Registry.ofList r.tools = .ok r ∧ r.lookup "rm" = some (Agent.Sample.tool "rm" true) ∧
      r.lookup "r m" = none ∧ ∃ specs, specsIn .gemini r.catalogue = .ok specs ∧
        specs.map (·.member "name") = [.str "ls", .str "rm"] := by
  intro r
  obtain ⟨-, hall, -⟩ := advertised_names_reach_tools r.tools
  have hr : Registry.ofList r.tools = .ok r := Registry.ofList_eq_ok_iff.mpr rfl
  obtain ⟨hfound, hnone, hformats⟩ := hall r hr
  have hrm : Agent.Sample.tool "rm" true ∈ r.tools := List.mem_cons_of_mem _ List.mem_cons_self
  refine ⟨hr, (hfound _ _).mpr ⟨hrm, rfl⟩, (hnone _).mpr ?_, ?_⟩
  · have hnames : ∀ name ∈ r.tools.map Tool.name, name ≠ "r m" := by decide
    exact fun t ht => hnames t.name (List.mem_map_of_mem ht)
  · obtain ⟨specs, hspecs, hadvertised, -⟩ := hformats .gemini
    obtain ⟨ls, _, hls, hrest, rfl⟩ := List.forall₂_cons_left_iff.mp hadvertised
    obtain ⟨rm, _, hrm, hnone, rfl⟩ := List.forall₂_cons_left_iff.mp hrest
    obtain rfl := List.forall₂_nil_left_iff.mp hnone
    have hnames : [ls.member "name", rm.member "name"] = [.str "ls", .str "rm"] :=
      congrArg₂ (fun a b => [a, b]) hls.named hrm.named
    exact ⟨[ls, rm], hspecs, hnames⟩

end Parley
