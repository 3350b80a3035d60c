import Parley.Proofs.Json.Texts
import Parley.Proofs.Wire.Ending
import Parley.Proofs.Wire.Indexed
import Parley.Proofs.Wire.Lines

/-!
# Tool calls in fragments

In the OpenAI format the fragments of several tool calls may come in any order and any number of
them on one line.  `interleaving_independent` says what the calls of the answer are, by the
fragments for each index:

* there is a call for each index whose fragments held a name or arguments, in ascending order;
* its arguments are those of its fragments one behind the other, and its id is the last one that
  came;
* its name is what the fragments repeat, or what they add up to (`Assembled`).

So only the fragments for each index and the pieces of text have an influence on the message.  A
chunk adds its fragments to what has come (`takeChunk_snd`), and by `Indexed.lookup_collect` a call
is built from the fragments for its index (`built`).
-/

namespace Parley.Wire.OpenAi

open Chat (Message ToolCall)
open Indexed (Ascending collect grown partsAt putAt)

/-! ### Fragments -/

/-- What a fragment holds of a tool call, where a text that it does not hold is empty. -/
structure Fragment where
  /-- The id. -/
  id : String
  /-- A part of the name, or all of it. -/
  name : String
  /-- A part of the arguments. -/
  arguments : String
deriving DecidableEq

/-- What a value holds of a tool call. -/
def Fragment.ofJson (v : Json) : Fragment :=
  let function := v.member "function"
  ⟨(v.member "id").strOrEmpty, (function.member "name").strOrEmpty,
    (function.member "arguments").strOrEmpty⟩

/-- The first choice of a chunk or a reply. -/
def choiceOf (v : Json) : Json := (v.member "choices").nth 0

/-- The delta of a chunk. -/
def deltaOf (chunk : Json) : Json := (choiceOf chunk).member "delta"

/-- A fragment with the index of its call, which is the first one when no index is named. -/
def fragmentOf (v : Json) : Nat × Fragment := (((v.member "index").nat64?).getD 0, .ofJson v)

/-- The fragments of a chunk. -/
def fragmentsOf (chunk : Json) : List (Nat × Fragment) :=
  (((deltaOf chunk).member "tool_calls").items?.getD []).map fragmentOf

/-- The piece of text of a chunk, which may be empty. -/
def contentOf (chunk : Json) : String := ((deltaOf chunk).member "content").strOrEmpty

/-- The chunk that a line holds.  The line that ends a stream holds none. -/
def chunk? (line : String) : Option Json :=
  (dataOf? line).bind fun data => (Json.parse data).toOption

theorem exists_data_of_chunk? {line : String} {chunk : Json} (h : chunk? line = some chunk) :
    ∃ data, dataOf? line = some data ∧ Json.parse data = .ok chunk := by
  obtain ⟨data, hdata, hoption⟩ := Option.bind_eq_some_iff.mp h
  refine ⟨data, hdata, ?_⟩
  cases hparse : Json.parse data with
  | error e =>
    rw [hparse] at hoption
    cases hoption
  | ok v =>
    rw [hparse] at hoption
    cases hoption
    rfl

theorem chunk?_dataLine {members : List (String × Json)}
    (hparse : Json.parseChars (Json.obj members).chars = .ok (.obj members)) :
    chunk? (dataLine (.obj members)) = some (.obj members) := by
  rw [chunk?, dataOf?_dataLine, Option.bind_some, Json.parse_print hparse]
  rfl

/-- The fragments for an index, in the order in which they come. -/
def fragmentsAt (i : Nat) (lines : List String) : List Fragment :=
  partsAt i ((lines.filterMap chunk?).flatMap fragmentsOf)

/-- The pieces of text that come. -/
def contents (lines : List String) : List String :=
  ((lines.filterMap chunk?).map contentOf).filter (· ≠ "")

/-! ### A call and its fragments -/

namespace CallParts

/-- Take what a fragment holds. -/
def add (parts : CallParts) (f : Fragment) : CallParts :=
  let parts := if f.id = "" then parts else { parts with id := f.id }
  let parts := parts.takeName f.name
  { parts with arguments := parts.arguments ++ f.arguments }

theorem takeName_empty (parts : CallParts) : parts.takeName "" = parts := by
  unfold takeName
  split
  · rename_i h
    have hname : parts.name = "" := by simpa using h
    rw [← hname]
  · rw [String.append_empty]

theorem take_eq (parts : CallParts) (v : Json) : parts.take v = parts.add (.ofJson v) := by
  unfold take add Fragment.ofJson Json.strOrEmpty
  dsimp only
  generalize (v.member "id").str? = id?
  generalize ((v.member "function").member "name").str? = name?
  generalize ((v.member "function").member "arguments").str? = arguments?
  -- an empty text is as good as none
  rcases id? with _ | id
  · cases name? <;> cases arguments? <;> simp [takeName_empty]
  · by_cases hid : id = "" <;> cases name? <;> cases arguments? <;>
      simp [hid, takeName_empty, Option.filter]

theorem add_eq (parts : CallParts) (f : Fragment) :
    parts.add f =
      { id := if f.id = "" then parts.id else f.id
        name := if parts.name.toList <+: f.name.toList then f.name else parts.name ++ f.name
        arguments := parts.arguments ++ f.arguments } := by
  unfold add takeName
  by_cases hid : f.id = "" <;> by_cases hname : parts.name.toList <+: f.name.toList <;>
    simp [hid, hname]

theorem foldl_add_id (parts : CallParts) (fs : List Fragment) :
    (fs.foldl add parts).id = ((fs.map (·.id)).filter (· ≠ "")).getLast?.getD parts.id := by
  induction fs generalizing parts with
  | nil => rfl
  | cons f fs ih =>
    rw [List.foldl_cons, ih, add_eq, List.map_cons, List.filter_cons]
    by_cases hid : f.id = ""
    · simp [hid]
    · simp [hid, List.getLast?_cons]

theorem foldl_add_arguments (parts : CallParts) (fs : List Fragment) :
    (fs.foldl add parts).arguments = parts.arguments ++ String.join (fs.map (·.arguments)) := by
  induction fs generalizing parts with
  | nil => exact (String.append_empty ..).symm
  | cons f fs ih =>
    rw [List.foldl_cons, ih, add_eq, List.map_cons, String.join_cons, String.append_assoc]

theorem add_name_eq_empty_iff (parts : CallParts) (f : Fragment) :
    (parts.add f).name = "" ↔ parts.name = "" ∧ f.name = "" := by
  rw [add_eq]
  dsimp only
  split_ifs with h
  · refine ⟨fun hname => ⟨?_, hname⟩, And.right⟩
    simpa [hname] using h
  · exact String.append_eq_empty_iff

theorem foldl_add_name_eq_empty_iff (parts : CallParts) (fs : List Fragment) :
    (fs.foldl add parts).name = "" ↔ parts.name = "" ∧ ∀ f ∈ fs, f.name = "" := by
  induction fs generalizing parts with
  | nil => simp
  | cons f fs ih => rw [List.foldl_cons, ih, add_name_eq_empty_iff, List.forall_mem_cons, and_assoc]

/-- A name that is sent again does not grow. -/
theorem foldl_add_repeated {name : String} {parts : CallParts} {fs : List Fragment}
    (hparts : parts.name = "" ∨ parts.name = name) (hfs : ∀ f ∈ fs, f.name = "" ∨ f.name = name) :
    (fs.foldl add parts).name = "" ∨ (fs.foldl add parts).name = name := by
  induction fs generalizing parts with
  | nil => exact hparts
  | cons f fs ih =>
    obtain ⟨hf, hrest⟩ := List.forall_mem_cons.mp hfs
    refine ih ?_ hrest
    rw [add_eq]
    dsimp only
    split_ifs with h
    · exact hf
    · rcases hparts with hparts | hparts
      · rwa [hparts, String.empty_append]
      · rcases hf with hf | hf
        · rw [hf, String.append_empty]
          exact Or.inr hparts
        · exact absurd (by simp [hparts, hf]) h

/-- A name that is sent in parts is put together, as long as no part begins with all that came
before it. -/
theorem foldl_add_spread {parts : CallParts} {fs : List Fragment}
    (hfs : ∀ before f after, fs = before ++ f :: after → f.name ≠ "" →
      parts.name ++ String.join (before.map (·.name)) ≠ "" →
        ¬ (parts.name ++ String.join (before.map (·.name))).toList <+: f.name.toList) :
    (fs.foldl add parts).name = parts.name ++ String.join (fs.map (·.name)) := by
  induction fs generalizing parts with
  | nil => exact (String.append_empty ..).symm
  | cons f fs ih =>
    have hname : (parts.add f).name = parts.name ++ f.name := by
      rw [add_eq]
      dsimp only
      split_ifs with h
      · by_cases hparts : parts.name = ""
        · rw [hparts, String.empty_append]
        · have hf : f.name ≠ "" := by
            intro hf
            rw [hf] at h
            exact hparts (by simpa using h)
          exact absurd (by simpa using h) (hfs [] f fs rfl hf (by simpa using hparts))
      · rfl
    have hrest : (fs.foldl add (parts.add f)).name
        = (parts.add f).name ++ String.join (fs.map (·.name)) := by
      refine ih ?_
      intro before g after hsplit hg hne
      rw [hname, String.append_assoc, ← String.join_cons, ← List.map_cons] at hne ⊢
      exact hfs (f :: before) g after (by rw [hsplit, List.cons_append]) hg hne
    rw [List.foldl_cons, hrest, hname, List.map_cons, String.join_cons, String.append_assoc]

end CallParts

/-- What comes of the fragments of a call. -/
def built (fs : List Fragment) : CallParts := fs.foldl CallParts.add {}

/-- Whether a call is what its fragments add up to. -/
structure Assembled (fs : List Fragment) (call : ToolCall) : Prop where
  /-- The id is the last one that came. -/
  id : call.id = ((fs.map (·.id)).filter (· ≠ "")).getLast?.getD ""
  /-- The arguments came in pieces. -/
  arguments : call.arguments = String.join (fs.map (·.arguments))
  /-- A name may be sent again and again. -/
  repeated : ∀ name ≠ "", name ∈ fs.map (·.name) → (∀ f ∈ fs, f.name = "" ∨ f.name = name) →
    call.name = name
  /-- A name may be sent in parts, none of which begins with all that came before it. -/
  spread : (∀ before f after, fs = before ++ f :: after → f.name ≠ "" →
      String.join (before.map (·.name)) ≠ "" →
        ¬ (String.join (before.map (·.name))).toList <+: f.name.toList) →
    call.name = String.join (fs.map (·.name))

theorem assembled_built (fs : List Fragment) : Assembled fs (built fs).toCall where
  id := CallParts.foldl_add_id {} fs
  arguments := (CallParts.foldl_add_arguments {} fs).trans (String.empty_append ..)
  repeated := by
    intro name hne hmem hfs
    refine (CallParts.foldl_add_repeated (Or.inl rfl) hfs).resolve_left ?_
    rw [CallParts.foldl_add_name_eq_empty_iff]
    rintro ⟨-, hempty⟩
    obtain ⟨f, hf, rfl⟩ := List.mem_map.mp hmem
    exact hne (hempty f hf)
  spread := by
    intro hfs
    refine (CallParts.foldl_add_spread ?_).trans (String.empty_append ..)
    intro before f after hsplit hf hne
    rw [String.empty_append] at hne ⊢
    exact hfs before f after hsplit hf hne

theorem join_eq_empty_iff (ss : List String) : String.join ss = "" ↔ ∀ s ∈ ss, s = "" := by
  induction ss with
  | nil => simp
  | cons s ss ih => rw [String.join_cons, String.append_eq_empty_iff, ih, List.forall_mem_cons]

theorem isCall_built_iff (fs : List Fragment) :
    (built fs).isCall = true ↔ ∃ f ∈ fs, f.name ≠ "" ∨ f.arguments ≠ "" := by
  have hname : (built fs).name ≠ "" ↔ ∃ f ∈ fs, f.name ≠ "" := by
    rw [ne_eq, built, CallParts.foldl_add_name_eq_empty_iff]
    simp
  have harguments : (built fs).arguments ≠ "" ↔ ∃ f ∈ fs, f.arguments ≠ "" := by
    rw [ne_eq, built, CallParts.foldl_add_arguments, String.empty_append, join_eq_empty_iff]
    simp
  rw [CallParts.isCall, Bool.or_eq_true, Bool.not_eq_true', Bool.not_eq_true',
    String.isEmpty_eq_false_iff, String.isEmpty_eq_false_iff, hname, harguments]
  simp only [and_or_left, exists_or]

/-! ### Chunks -/

/-- How a call goes on with a fragment, which may be its first. -/
def grow (parts? : Option CallParts) (f : Fragment) : CallParts := (parts?.getD {}).add f

theorem grown_grow (fs : List Fragment) :
    grown grow none fs = if fs = [] then none else some (built fs) := by
  have hsome (parts : CallParts) (fs : List Fragment) :
      grown grow (some parts) fs = some (fs.foldl CallParts.add parts) := by
    induction fs generalizing parts with
    | nil => rfl
    | cons f fs ih => exact ih (parts.add f)
  cases fs with
  | nil => rfl
  | cons f fs => exact hsome (CallParts.add {} f) fs

theorem takeAt_eq {calls : List (Nat × CallParts)} (h : Ascending calls) (index : Nat) (v : Json) :
    takeAt index v calls = putAt index (grow (calls.lookup index) (.ofJson v)) calls := by
  induction calls with
  | nil => simp [takeAt, putAt, grow, CallParts.take_eq]
  | cons call calls ih =>
    obtain ⟨i, parts⟩ := call
    obtain ⟨hfirst, hrest⟩ := List.pairwise_cons.mp h
    rw [takeAt, putAt, Indexed.lookup_cons]
    split_ifs with hlt heq
    · omega
    · -- the index is smaller than all others
      have hnone : calls.lookup index = none :=
        Indexed.lookup_eq_none fun e he => Nat.lt_trans hlt (hfirst e he)
      rw [hnone, CallParts.take_eq]
      rfl
    · rename_i heq
      rw [CallParts.take_eq, heq]
      rfl
    · rw [ih hrest]

theorem foldl_takeFragment {calls : List (Nat × CallParts)} (h : Ascending calls) (vs : List Json) :
    vs.foldl takeFragment calls =
      collect grow calls (vs.map fragmentOf) := by
  induction vs generalizing calls with
  | nil => rfl
  | cons v vs ih =>
    rw [List.foldl_cons, takeFragment, takeAt_eq h, ih (h.putAt _ _)]
    rfl

namespace Partial

variable {p p' : Partial}

theorem takeDelta_snd (h : Ascending p.calls) (delta : Json) :
    (p.takeDelta delta).2 = { p with
      text := p.text ++ (delta.member "content").strOrEmpty
      calls :=
        collect grow p.calls (((delta.member "tool_calls").items?.getD []).map fragmentOf) } := by
  unfold takeDelta Json.strOrEmpty
  rw [← foldl_takeFragment h]
  generalize (delta.member "content").str? = content?
  rcases content? with _ | content
  · simp
  · by_cases hcontent : content = "" <;> simp [hcontent, Option.filter]

/-- All that a chunk does. -/
theorem takeChunk_snd (h : Ascending p.calls) (chunk : Json) :
    (p.takeChunk chunk).2 =
      { text := p.text ++ contentOf chunk
        calls := collect grow p.calls (fragmentsOf chunk)
        finishReason? := ((choiceOf chunk).member "finish_reason").str?.or p.finishReason?
        usage := if (chunk.member "usage").isObject then OpenAi.usage chunk else p.usage
        isDone := p.isDone } := by
  unfold takeChunk contentOf fragmentsOf deltaOf choiceOf
  dsimp only
  cases (((chunk.member "choices").nth 0).member "finish_reason").str? <;>
    cases (chunk.member "usage").isObject
  all_goals
    refine (takeDelta_snd ?_ _).trans ?_
    · exact h
    · rfl

/-- A chunk is taken unless it reports an error. -/
theorem feed_chunk (p : Partial) {line : String} {chunk : Json}
    (hchunk : chunk? line = some chunk) :
    p.feed line = match chunk.present? "error" with
      | some error => .error (reportedFailure error)
      | none => .ok (p.takeChunk chunk) := by
  obtain ⟨data, hdata, hparse⟩ := exists_data_of_chunk? hchunk
  unfold feed
  split
  · rename_i hnone
    rw [hnone] at hdata
    cases hdata
  · rename_i hend
    -- the end mark is no JSON
    rw [hend] at hdata
    cases hdata
    cases hparse
  · rename_i data' _ hdata'
    obtain rfl : data = data' := Option.some.inj (hdata.symm.trans hdata')
    cases herror : chunk.present? "error" <;> simp only [hparse, herror]

/-- What an assembly knows of text and tool calls when it has taken chunks. -/
structure Took (p : Partial) (chunks : List Json) (p' : Partial) : Prop where
  text : p'.text = p.text ++ String.join (chunks.map contentOf)
  calls : p'.calls = collect grow p.calls (chunks.flatMap fragmentsOf)

theorem Took.append {p'' : Partial} {chunks more : List Json} (h : Took p chunks p')
    (hmore : Took p' more p'') : Took p (chunks ++ more) p'' where
  text := by rw [hmore.text, h.text, List.map_append, String.join_append, String.append_assoc]
  calls := by rw [hmore.calls, h.calls, List.flatMap_append, Indexed.collect_append]

theorem took_feed {line : String} {delta? : Option String} (h : Ascending p.calls)
    (hfeed : p.feed line = .ok (delta?, p')) : Took p (chunk? line).toList p' := by
  rcases feed_cases hfeed with ⟨hdata, rfl⟩ | ⟨hdata, rfl⟩ | ⟨data, chunk, hdata, -, hparse, rfl⟩
  · have hnone : chunk? line = none := by rw [chunk?, hdata, Option.bind_none]
    rw [hnone]
    exact ⟨(String.append_empty ..).symm, rfl⟩
  · -- the end mark is no JSON
    have hnone : chunk? line = none := by
      rw [chunk?, hdata]
      rfl
    rw [hnone]
    exact ⟨(String.append_empty ..).symm, rfl⟩
  · have hchunk : chunk? line = some chunk := by
      rw [chunk?, hdata, Option.bind_some, hparse]
      rfl
    rw [hchunk, takeChunk_snd h]
    refine ⟨?_, ?_⟩
    · simp
    · simp

end Partial

theorem took_feedAll {p p' : Partial} {lines : List String} (h : Ascending p.calls)
    (hfeed : assembly.feedAll p lines = .ok p') : p.Took (lines.filterMap chunk?) p' := by
  induction lines generalizing p with
  | nil =>
    cases hfeed
    exact ⟨(String.append_empty ..).symm, rfl⟩
  | cons line lines ih =>
    obtain ⟨delta?, s, hline, hrest⟩ := Assembly.exists_feed_of_feedAll hfeed
    rw [assembly_feed] at hline
    have htook := Partial.took_feed h hline
    have hs : Ascending s.calls := by
      rw [htook.calls]
      exact h.collect _ _
    have hlines :
        (line :: lines).filterMap chunk? = (chunk? line).toList ++ lines.filterMap chunk? := by
      cases hchunk : chunk? line <;> simp [hchunk]
    rw [hlines]
    exact htook.append (ih hs hrest)

/-- Lines are taken when each of them has no data, is the end mark or holds a chunk that is no
error. -/
theorem exists_feedAll {lines : List String} (p : Partial)
    (h : ∀ line ∈ lines, dataOf? line = none ∨ dataOf? line = some "[DONE]" ∨
      ∃ chunk, chunk? line = some chunk ∧ chunk.present? "error" = none) :
    ∃ p', assembly.feedAll p lines = .ok p' := by
  induction lines generalizing p with
  | nil => exact ⟨p, rfl⟩
  | cons line lines ih =>
    obtain ⟨hline, hlines⟩ := List.forall_mem_cons.mp h
    have hfeed : ∃ r, p.feed line = .ok r := by
      rcases hline with hdata | hdata | ⟨chunk, hchunk, herror⟩
      · exact ⟨(none, p), by simp only [Partial.feed, hdata]⟩
      · exact ⟨(none, { p with isDone := true }), by simp only [Partial.feed, hdata]⟩
      · refine ⟨p.takeChunk chunk, ?_⟩
        rw [p.feed_chunk hchunk, herror]
    obtain ⟨r, hr⟩ := hfeed
    obtain ⟨p', hp'⟩ := ih r.2 hlines
    rw [← assembly_feed] at hr
    exact ⟨p', (Assembly.feedAll_cons hr lines).trans hp'⟩

theorem isDone_feed {p p' : Partial} {line : String} {delta? : Option String}
    (hfeed : p.feed line = .ok (delta?, p')) :
    p'.isDone = true ↔ p.isDone = true ∨ dataOf? line = some "[DONE]" := by
  rcases Partial.feed_cases hfeed with ⟨hdata, rfl⟩ | ⟨hdata, rfl⟩ | ⟨data, chunk, hdata,
    hne, -, rfl⟩
  · simp [hdata]
  · simp [hdata]
  · simp [(Partial.takeChunk_eq p chunk).1, hdata, hne]

theorem isDone_feedAll {p p' : Partial} {lines : List String}
    (hfeed : assembly.feedAll p lines = .ok p') :
    p'.isDone = true ↔ p.isDone = true ∨ ∃ line ∈ lines, dataOf? line = some "[DONE]" := by
  induction lines generalizing p with
  | nil =>
    cases hfeed
    simp
  | cons line lines ih =>
    obtain ⟨delta?, s, hline, hrest⟩ := Assembly.exists_feed_of_feedAll hfeed
    rw [assembly_feed] at hline
    rw [ih hrest, isDone_feed hline, List.exists_mem_cons_iff, or_assoc]

/-! ### The calls of an answer -/

theorem mem_calls_iff {calls : List (Nat × CallParts)} {fs : Nat → List Fragment}
    (h : Ascending calls) (hlookup : ∀ i, calls.lookup i = grown grow none (fs i)) {i : Nat}
    {parts : CallParts} :
    (i, parts) ∈ calls ↔ fs i ≠ [] ∧ parts = built (fs i) := by
  rw [Indexed.mem_iff_lookup h, hlookup, grown_grow]
  split_ifs with hnil
  · simp [hnil]
  · simp [hnil, eq_comm]

/-- The calls are those of the indices whose fragments held anything, in ascending order. -/
theorem exists_indices {p : Partial} {fs : Nat → List Fragment} (h : Ascending p.calls)
    (hlookup : ∀ i, p.calls.lookup i = grown grow none (fs i)) :
    ∃ indices : List Nat, indices.Pairwise (· < ·) ∧
      (∀ i, i ∈ indices ↔ ∃ f ∈ fs i, f.name ≠ "" ∨ f.arguments ≠ "") ∧
      p.toolCalls = indices.map fun i => (built (fs i)).toCall := by
  refine ⟨(p.calls.filter (·.2.isCall)).map (·.1), ?_, ?_, ?_⟩
  · rw [List.pairwise_map]
    exact h.filter _
  · intro i
    have hmem : i ∈ (p.calls.filter (·.2.isCall)).map (·.1) ↔
        fs i ≠ [] ∧ (built (fs i)).isCall = true := by
      simp only [List.mem_map, List.mem_filter, Prod.exists, exists_and_right, exists_eq_right,
        mem_calls_iff h hlookup]
      constructor
      · rintro ⟨parts, ⟨hne, rfl⟩, hcall⟩
        exact ⟨hne, hcall⟩
      · rintro ⟨hne, hcall⟩
        exact ⟨_, ⟨hne, rfl⟩, hcall⟩
    rw [hmem, isCall_built_iff]
    refine and_iff_right_of_imp ?_
    rintro ⟨f, hf, -⟩
    exact List.ne_nil_of_mem hf
  · rw [Partial.toolCalls, List.map_map]
    refine List.map_congr_left ?_
    rintro ⟨i, parts⟩ hmem
    obtain ⟨-, rfl⟩ := (mem_calls_iff h hlookup).mp (List.mem_of_mem_filter hmem)
    rfl

theorem lookup_feedAll {p : Partial} {lines : List String}
    (hfeed : assembly.feedAll assembly.start lines = .ok p) (i : Nat) :
    p.calls.lookup i = grown grow none (fragmentsAt i lines) := by
  rw [(took_feedAll Indexed.ascending_nil hfeed).calls, Indexed.lookup_collect]
  rfl

theorem ascending_feedAll {p : Partial} {lines : List String}
    (hfeed : assembly.feedAll assembly.start lines = .ok p) : Ascending p.calls := by
  rw [(took_feedAll Indexed.ascending_nil hfeed).calls]
  exact Indexed.ascending_nil.collect _ _

theorem join_filter (ss : List String) : String.join (ss.filter (· ≠ "")) = String.join ss := by
  induction ss with
  | nil => rfl
  | cons s ss ih => by_cases h : s = "" <;> simpa [h] using ih

theorem text_feedAll {p : Partial} {lines : List String}
    (hfeed : assembly.feedAll assembly.start lines = .ok p) :
    p.text = String.join (contents lines) := by
  rw [(took_feedAll Indexed.ascending_nil hfeed).text, contents, join_filter]
  exact String.empty_append ..

theorem finish_eq_ok {p : Partial} {lines : List String} {completion : Completion}
    (hfeed : assembly.feedAll assembly.start lines = .ok p) (hfinish : p.finish = .ok completion) :
    completion.message =
      { role := .assistant, content := .plain (String.join (contents lines)),
        toolCalls := p.toolCalls } := by
  unfold Partial.finish at hfinish
  split_ifs at hfinish
  cases hfinish
  rw [text_feedAll hfeed]

/-- **Interleaving does not matter.**  When lines are taken and the end mark is among them, the
calls of the answer are those of the indices whose fragments held a name or arguments, in ascending
order, and each is what its fragments add up to.  Lines with the same pieces of text and for each
index the same fragments give the same message, wherever the fragments of other indices and lines
without a chunk stand between them. -/
theorem interleaving_independent {lines : List String} {p : Partial}
    (haccepts : assembly.feedAll assembly.start lines = .ok p)
    (hdone : ∃ line ∈ lines, dataOf? line = some "[DONE]") :
    ∃ (completion : Completion) (indices : List Nat) (call : Nat → ToolCall),
      assembly.answer lines = .ok completion ∧
      completion.message.content = .plain (String.join (contents lines)) ∧
      indices.Pairwise (· < ·) ∧
      (∀ i, i ∈ indices ↔ ∃ f ∈ fragmentsAt i lines, f.name ≠ "" ∨ f.arguments ≠ "") ∧
      completion.message.toolCalls = indices.map call ∧
      (∀ i, Assembled (fragmentsAt i lines) (call i)) ∧
      ∀ (lines' : List String) (completion' : Completion),
        assembly.answer lines' = .ok completion' →
        contents lines' = contents lines → (∀ i, fragmentsAt i lines' = fragmentsAt i lines) →
          completion'.message = completion.message := by
  have hfinish : p.finish =
      .ok ⟨⟨.assistant, .plain p.text, p.toolCalls, none⟩, p.finishReason?, p.usage⟩ := by
    rw [Partial.finish, (isDone_feedAll haccepts).mpr (Or.inr hdone)]
    rfl
  have hmessage := finish_eq_ok haccepts hfinish
  obtain ⟨indices, hpairwise, hmem, hcalls⟩ :=
    exists_indices (ascending_feedAll haccepts) (lookup_feedAll haccepts)
  refine ⟨_, indices, fun i => (built (fragmentsAt i lines)).toCall,
    (Assembly.answer_of_feedAll haccepts).trans hfinish, congrArg Message.content hmessage,
    hpairwise, hmem, hcalls, fun i => assembled_built _, ?_⟩
  intro lines' completion' hanswer' hcontents hfragments
  obtain ⟨p', haccepts', hfinish'⟩ := Assembly.exists_feedAll_of_answer hanswer'
  have hcalls' : p'.calls = p.calls := by
    refine Indexed.eq_of_lookup (ascending_feedAll haccepts') (ascending_feedAll haccepts) ?_
    intro i
    rw [lookup_feedAll haccepts', lookup_feedAll haccepts, hfragments]
  rw [finish_eq_ok haccepts' hfinish', hmessage, hcontents, Partial.toolCalls,
    Partial.toolCalls, hcalls']

/-- A chunk that holds fragments. -/
def chunkOf (fragments : List (Nat × Fragment)) : Json :=
  .obj [("choices", .arr [.obj [("delta", .obj [("tool_calls", .arr (fragments.map fun (index, f) =>
    .obj [("function", .obj [("arguments", .str f.arguments), ("name", .str f.name)]),
      ("id", .str f.id), ("index", .nat index)]))])]])]

/-- The fragments of two calls, one after the other. -/
def inOrder : List String :=
  [dataLine (chunkOf [(0, ⟨"c1", "ls", "["⟩), (0, ⟨"", "ls", "]"⟩)]),
    dataLine (chunkOf [(3, ⟨"c2", "r", ""⟩), (3, ⟨"", "m", "[]"⟩)]), "data: [DONE]"]

/-- The same fragments, some of which stand between each other. -/
def interleaved : List String :=
  [dataLine (chunkOf [(3, ⟨"c2", "r", ""⟩), (0, ⟨"c1", "ls", "["⟩)]), ": ping",
    dataLine (chunkOf [(0, ⟨"", "ls", "]"⟩), (3, ⟨"", "m", "[]"⟩)]), "data: [DONE]"]

theorem interleaving_independent_twoCalls :
    (∃ p, assembly.feedAll assembly.start interleaved = .ok p) ∧
    (∃ line ∈ interleaved, dataOf? line = some "[DONE]") ∧
    ∃ completion completion', assembly.answer interleaved = .ok completion ∧
      assembly.answer inOrder = .ok completion' ∧ completion'.message = completion.message := by
  have hline (fs : List (Nat × Fragment)) (hparse : Json.parseChars (chunkOf fs).chars =
      .ok (chunkOf fs)) :
      chunk? (dataLine (chunkOf fs)) = some (chunkOf fs) := chunk?_dataLine hparse
  have first := hline [(0, ⟨"c1", "ls", "["⟩), (0, ⟨"", "ls", "]"⟩)] (by decide +kernel)
  have second := hline [(3, ⟨"c2", "r", ""⟩), (3, ⟨"", "m", "[]"⟩)] (by decide +kernel)
  have starts := hline [(3, ⟨"c2", "r", ""⟩), (0, ⟨"c1", "ls", "["⟩)] (by decide +kernel)
  have rests := hline [(0, ⟨"", "ls", "]"⟩), (3, ⟨"", "m", "[]"⟩)] (by decide +kernel)
  have hping : dataOf? ": ping" = none := by decide
  have hend : dataOf? "data: [DONE]" = some "[DONE]" := by decide
  have ping : chunk? ": ping" = none := by rw [chunk?, hping, Option.bind_none]
  have ends : chunk? "data: [DONE]" = none := by
    rw [chunk?, hend]
    rfl
  obtain ⟨p, hp⟩ : ∃ p, assembly.feedAll assembly.start interleaved = .ok p := by
    refine exists_feedAll _ fun line hmem => ?_
    simp only [interleaved, List.mem_cons, List.not_mem_nil, or_false] at hmem
    rcases hmem with rfl | rfl | rfl | rfl
    · exact Or.inr (Or.inr ⟨_, starts, rfl⟩)
    · exact Or.inl hping
    · exact Or.inr (Or.inr ⟨_, rests, rfl⟩)
    · exact Or.inr (Or.inl hend)
  obtain ⟨p', hp'⟩ : ∃ p, assembly.feedAll assembly.start inOrder = .ok p := by
    refine exists_feedAll _ fun line hmem => ?_
    simp only [inOrder, List.mem_cons, List.not_mem_nil, or_false] at hmem
    rcases hmem with rfl | rfl | rfl
    · exact Or.inr (Or.inr ⟨_, first, rfl⟩)
    · exact Or.inr (Or.inr ⟨_, second, rfl⟩)
    · exact Or.inr (Or.inl hend)
  have hdone : ∃ line ∈ interleaved, dataOf? line = some "[DONE]" :=
    ⟨_, by simp [interleaved], hend⟩
  have hdone' : ∃ line ∈ inOrder, dataOf? line = some "[DONE]" := ⟨_, by simp [inOrder], hend⟩
  have hchunks : interleaved.filterMap chunk? =
      [chunkOf [(3, ⟨"c2", "r", ""⟩), (0, ⟨"c1", "ls", "["⟩)],
        chunkOf [(0, ⟨"", "ls", "]"⟩), (3, ⟨"", "m", "[]"⟩)]] := by
    rw [interleaved, List.filterMap_cons_some starts, List.filterMap_cons_none ping,
      List.filterMap_cons_some rests, List.filterMap_cons_none ends, List.filterMap_nil]
  have hchunks' : inOrder.filterMap chunk? =
      [chunkOf [(0, ⟨"c1", "ls", "["⟩), (0, ⟨"", "ls", "]"⟩)],
        chunkOf [(3, ⟨"c2", "r", ""⟩), (3, ⟨"", "m", "[]"⟩)]] := by
    rw [inOrder, List.filterMap_cons_some first, List.filterMap_cons_some second,
      List.filterMap_cons_none ends, List.filterMap_nil]
  obtain ⟨completion, -, -, hanswer, -, -, -, -, -, hsame⟩ := interleaving_independent hp hdone
  obtain ⟨completion', -, -, hanswer', -⟩ := interleaving_independent hp' hdone'
  refine ⟨⟨p, hp⟩, hdone, completion, completion', hanswer, hanswer',
    hsame _ _ hanswer' ?_ fun i => ?_⟩
  · rw [contents, contents, hchunks, hchunks']
    rfl
  · -- no index but these two has fragments
    have hfragments : ([chunkOf [(3, ⟨"c2", "r", ""⟩), (0, ⟨"c1", "ls", "["⟩)],
        chunkOf [(0, ⟨"", "ls", "]"⟩), (3, ⟨"", "m", "[]"⟩)]]).flatMap fragmentsOf =
        [(3, ⟨"c2", "r", ""⟩), (0, ⟨"c1", "ls", "["⟩), (0, ⟨"", "ls", "]"⟩),
          (3, ⟨"", "m", "[]"⟩)] := rfl
    have hfragments' : ([chunkOf [(0, ⟨"c1", "ls", "["⟩), (0, ⟨"", "ls", "]"⟩)],
        chunkOf [(3, ⟨"c2", "r", ""⟩), (3, ⟨"", "m", "[]"⟩)]]).flatMap fragmentsOf =
        [(0, ⟨"c1", "ls", "["⟩), (0, ⟨"", "ls", "]"⟩), (3, ⟨"c2", "r", ""⟩),
          (3, ⟨"", "m", "[]"⟩)] := rfl
    rw [fragmentsAt, fragmentsAt, hchunks, hchunks', hfragments, hfragments']
    by_cases hzero : i = 0
    · subst hzero
      rfl
    · by_cases hthree : i = 3
      · subst hthree
        rfl
      · simp [partsAt, Ne.symm hzero, Ne.symm hthree]

end Parley.Wire.OpenAi
