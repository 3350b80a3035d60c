import Parley.Chat.Message
import Parley.Entries
import Parley.Tool.Name
import Parley.Tool.Output

/-!
# Tools and the registry

A `Tool` is what the model is told about it, whether a person has to confirm its calls, and a
handler.  A handler works on a state of type `σ`, the surroundings that all tools of a registry
share.

A `Registry` is a list of tools with an index, in which each tool has been entered under its name
(`Tool.register`).  Names must be valid and must differ.  `Registry.ofList` builds one or says which
tool is at fault, and `Registry.lookup` finds a tool by its exact name.
-/

namespace Parley

/-! ### Tools -/

/-- A tool that can be run. -/
structure Tool (σ : Type) where
  /-- What the model is told. -/
  schema : Chat.ToolSchema
  /-- Whether a person must confirm a call before it runs. -/
  requiresConfirmation : Bool := false
  /-- Run the tool with the arguments of a call. -/
  handler : Chat.Arguments → σ → Except Chat.ToolError Tool.Output × σ

namespace Tool

variable {σ : Type}

/-- The name of a tool. -/
def name (t : Tool σ) : String := t.schema.name

/-- Run a tool for a call, unless the arguments of the call cannot be read. -/
def invoke (t : Tool σ) (call : Chat.ToolCall) (s : σ) : Except Chat.ToolError Output × σ :=
  match call.parseArguments with
  | .error e => (.error e, s)
  | .ok arguments => t.handler arguments s

/-- A tool that works on a part of a larger state. -/
def within {τ : Type} (t : Tool σ) (get : τ → σ) (set : σ → τ → τ) : Tool τ where
  schema := t.schema
  requiresConfirmation := t.requiresConfirmation
  handler arguments s :=
    let (answer, part) := t.handler arguments (get s)
    (answer, set part s)

/-- Enter tools under their names, with their positions from a given one on.  The first tool that
cannot be entered is at fault for an invalid name, or for one that is taken. -/
def register (position : Nat) (index : List (String × Nat)) :
    List (Tool σ) → Except Chat.ToolError (List (String × Nat))
  | [] => .ok index
  | t :: rest =>
    if !isValidName t.name then .error (.internal ("Invalid tool name: " ++ t.name))
    else if (index.lookup t.name).isSome then .error (.internal ("Duplicate tool name: " ++ t.name))
    else register (position + 1) (Entries.put t.name position index) rest

theorem register_cons {t : Tool σ} {rest : List (Tool σ)} {position : Nat}
    {index index' : List (String × Nat)} :
    register position index (t :: rest) = .ok index' ↔
    isValidName t.name = true ∧ index.lookup t.name = none ∧
      register (position + 1) (Entries.put t.name position index) rest = .ok index' := by
  rw [register]
  cases isValidName t.name with
  | false => simp
  | true => cases index.lookup t.name <;> simp

/-- **Registrable lists.**  Tools are entered exactly when all names are valid, differ from each
other and are not taken. -/
theorem exists_register_iff (position : Nat) (index : List (String × Nat)) (tools : List (Tool σ)) :
    (∃ index', register position index tools = .ok index') ↔
      (∀ t ∈ tools, isValidName t.name = true) ∧ (tools.map name).Nodup ∧
        ∀ t ∈ tools, index.lookup t.name = none := by
  induction tools generalizing position index with
  | nil => simp [register]
  | cons t rest ih =>
    have hput (u : Tool σ) : (Entries.put t.name position index).lookup u.name = none ↔
        u.name ≠ t.name ∧ index.lookup u.name = none := by
      rw [Entries.lookup_put]
      split
      · next hsame => simp [hsame]
      · next hother => simp [hother]
    simp only [register_cons, exists_and_left, ih, List.forall_mem_cons, List.map_cons,
      List.nodup_cons]
    constructor
    · rintro ⟨hvalid, hfree, hvalids, hnodup, hfrees⟩
      simp only [hput] at hfrees
      refine ⟨⟨hvalid, hvalids⟩, ⟨fun hmem => ?_, hnodup⟩, hfree, fun u hu => (hfrees u hu).2⟩
      obtain ⟨u, hu, hname⟩ := List.mem_map.mp hmem
      exact (hfrees u hu).1 hname
    · rintro ⟨⟨hvalid, hvalids⟩, ⟨hnew, hnodup⟩, hfree, hfrees⟩
      refine ⟨hvalid, hfree, hvalids, hnodup,
        fun u hu => (hput u).mpr ⟨fun hname => ?_, hfrees u hu⟩⟩
      exact hnew (List.mem_map.mpr ⟨u, hu, hname⟩)

/-- What has been entered are the names with their positions. -/
theorem eq_foldl_of_register {position : Nat} {index index' : List (String × Nat)}
    {tools : List (Tool σ)} (h : register position index tools = .ok index') : index' =
      ((tools.map name).zipIdx position).foldl (fun done (k, i) => Entries.put k i done) index := by
  induction tools generalizing position index with
  | nil =>
    cases h
    rfl
  | cons t rest ih => exact ih (register_cons.mp h).2.2

/-- Tools with names that are valid and differ can be entered. -/
theorem register_eq_ok {tools : List (Tool σ)} {names : List String}
    (hnames : tools.map name = names) (hvalid : ∀ n ∈ names, isValidName n = true)
    (hdistinct : names.Nodup) : register 0 [] tools = .ok (Entries.ofList names.zipIdx) := by
  subst hnames
  rw [List.forall_mem_map] at hvalid
  obtain ⟨index, hindex⟩ :=
    (exists_register_iff 0 [] tools).mpr ⟨hvalid, hdistinct, fun _ _ => rfl⟩
  rw [hindex, eq_foldl_of_register hindex]
  rfl

/-- **Where tools are entered.**  A name leads to the position of the tool that has it, or to what
was there. -/
theorem lookup_register {position : Nat} {index index' : List (String × Nat)}
    {tools : List (Tool σ)} (h : register position index tools = .ok index') (key : String) :
    index'.lookup key = ((tools.findIdx? (·.name == key)).map (position + ·)).or
      (index.lookup key) := by
  induction tools generalizing position index with
  | nil =>
    cases h
    rfl
  | cons t rest ih =>
    obtain ⟨-, -, hrest⟩ := register_cons.mp h
    rw [ih hrest, Entries.lookup_put, List.findIdx?_cons]
    by_cases hkey : key = t.name
    · -- the name was entered just now, so that no other tool has it
      have hfrees := ((exists_register_iff _ _ _).mp ⟨index', hrest⟩).2.2
      have hnone : rest.findIdx? (·.name == key) = none := by
        rw [List.findIdx?_eq_none_iff]
        intro u hu
        have hfree := hfrees u hu
        rw [Entries.lookup_put] at hfree
        rw [beq_eq_false_iff_ne]
        intro hname
        rw [hname, if_pos hkey] at hfree
        cases hfree
      rw [hnone, if_pos hkey, if_pos (beq_iff_eq.mpr hkey.symm)]
      rfl
    · rw [if_neg hkey, if_neg (by simpa using Ne.symm hkey), Option.map_map]
      congr 2
      funext i
      simp only [Function.comp_apply]
      omega

/-- Of tools with different names, each is found by its own. -/
theorem find?_of_mem {t : Tool σ} {tools : List (Tool σ)} (hdistinct : (tools.map name).Nodup)
    (ht : t ∈ tools) :
    tools.find? (·.name == t.name) = some t := by
  induction tools with
  | nil => cases ht
  | cons u rest ih =>
    rw [List.map_cons, List.nodup_cons] at hdistinct
    cases ht with
    | head => exact List.find?_cons_of_pos (beq_self_eq_true t.name)
    | tail _ ht =>
      have hother : u.name ≠ t.name :=
        fun hname => hdistinct.1 (List.mem_map.mpr ⟨t, ht, hname.symm⟩)
      rw [List.find?_cons_of_neg (by simpa using hother), ih hdistinct.2 ht]

end Tool

/-! ### The registry -/

/-- The tools offered to a model, in the order in which they were registered. -/
structure Registry (σ : Type) where
  /-- The tools. -/
  tools : List (Tool σ)
  /-- The positions of the tools, by name. -/
  index : List (String × Nat)
  /-- The tools have been entered one after the other. -/
  registered : Tool.register 0 [] tools = .ok index

namespace Registry

variable {σ : Type}

/-- The names of registered tools can be sent to a model as they are. -/
theorem valid (r : Registry σ) : ∀ t ∈ r.tools, Tool.isValidName t.name = true :=
  ((Tool.exists_register_iff 0 [] r.tools).mp ⟨r.index, r.registered⟩).1

/-- The names of registered tools differ. -/
theorem distinct (r : Registry σ) : (r.tools.map Tool.name).Nodup :=
  ((Tool.exists_register_iff 0 [] r.tools).mp ⟨r.index, r.registered⟩).2.1

/-- The registry without tools. -/
def empty : Registry σ := ⟨[], [], rfl⟩

/-- The registry of a list of tools. -/
def ofList (tools : List (Tool σ)) : Except Chat.ToolError (Registry σ) :=
  match h : Tool.register 0 [] tools with
  | .error e => .error e
  | .ok index => .ok ⟨tools, index, h⟩

/-- The tool with a name, at the position that the index has for it. -/
def lookup (r : Registry σ) (name : String) : Option (Tool σ) :=
  (r.index.lookup name).bind (r.tools[·]?)

/-- What is found under a name is the tool that has it. -/
theorem lookup_eq_find? (r : Registry σ) (name : String) :
    r.lookup name = r.tools.find? (·.name == name) := by
  rw [lookup, Tool.lookup_register r.registered, List.find?_eq_bind_findIdx?_getElem?]
  cases r.tools.findIdx? (·.name == name) with
  | none => rfl
  | some i => simp

theorem mem_of_lookup {r : Registry σ} {name : String} {t : Tool σ} (h : r.lookup name = some t) :
    t ∈ r.tools := by
  rw [lookup_eq_find?] at h
  exact List.mem_of_find?_eq_some h

/-- The tool that is found under a name is the one that has it. -/
theorem lookup_eq_some_iff {r : Registry σ} {name : String} {t : Tool σ} :
    r.lookup name = some t ↔ t ∈ r.tools ∧ t.name = name := by
  constructor
  · intro h
    have ht := mem_of_lookup h
    rw [lookup_eq_find?] at h
    exact ⟨ht, by simpa using List.find?_some h⟩
  · rintro ⟨ht, rfl⟩
    rw [lookup_eq_find?, Tool.find?_of_mem r.distinct ht]

theorem lookup_eq_none_iff {r : Registry σ} {name : String} :
    r.lookup name = none ↔ ∀ t ∈ r.tools, t.name ≠ name := by
  simp [lookup_eq_find?]

/-- What the model is told about the tools. -/
def catalogue (r : Registry σ) : List Chat.ToolSchema := r.tools.map (·.schema)

/-- The tools for display, with what they ask of a person. -/
def describe (r : Registry σ) : List Json :=
  r.tools.map fun t =>
    .object [("type", .str "function"),
      ("function",
        .object [("name", .str t.schema.name), ("description", .str t.schema.description),
          ("parameters", t.schema.parameters)]),
      ("requires_confirmation", .bool t.requiresConfirmation)]

end Registry

end Parley
