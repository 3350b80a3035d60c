import Parley.Proofs.Json.Members
import Parley.Proofs.Json.Range
import Parley.Proofs.Json.Texts
import Parley.Proofs.Wire.Fragments

/-!
# Whole and streamed replies in the OpenAI format

A whole reply holds a message object, and the same fields come as the delta of a chunk, where the
tool calls are numbered (`asChunk`).  `answer_eq_completion_iff` says when the stream of that one
chunk gives the answer that the whole reply gives.  There are two things that the one reader does
and the other does not:

* a whole reply with an error member of `null` counts as failed, a chunk does not;
* arguments that are neither a text nor `null` are printed when a whole reply is read, and left out
  when they come in a chunk.

Everything else is read alike, whatever is missing or of another type.  The calls of a chunk stay
apart because the numbers of a text that was read are words (`Json.ranged_of_parse`), so each is
found under its own index.
-/

namespace Parley.Wire.OpenAi

open Chat (ToolCall)
open Indexed (Ascending collect)

/-! ### The chunk of a reply -/

/-- The message object of a reply. -/
def bodyOf (reply : Json) : Json := (choiceOf reply).member "message"

/-- The tool calls of a reply, as they stand in it. -/
def callsOf (reply : Json) : List Json := ((bodyOf reply).member "tool_calls").items?.getD []

/-- Tool calls with their places as indices. -/
def numbered (calls : List Json) : List Json :=
  calls.zipIdx.map fun (call, i) => call.withMember "index" (.nat i)

/-- A message object as a delta. -/
def asDelta (body : Json) : Json :=
  match (body.member "tool_calls").items? with
  | none => body
  | some calls => body.withMember "tool_calls" (.arr (numbered calls))

/-- A choice with its message as a delta. -/
def asDeltaChoice (choice : Json) : Json :=
  (choice.withoutMember "message").withMember "delta" (asDelta (choice.member "message"))

/-- A reply as a chunk: the message of its first choice is the delta. -/
def asChunk (reply : Json) : Json :=
  reply.withMember "choices"
    (.arr (((reply.member "choices").items?.getD []).modifyHead asDeltaChoice))

section

variable {reply : Json}

theorem isObject_choiceOf (h : (bodyOf reply).isObject = true) :
    (choiceOf reply).isObject = true := by
  have hbody : (choiceOf reply).member "message" ≠ .null := by
    intro hnull
    rw [bodyOf, hnull] at h
    cases h
  exact Json.isObject_of_member_ne_null hbody

theorem exists_choices (h : (bodyOf reply).isObject = true) :
    ∃ rest, reply.get? "choices" = some (.arr (choiceOf reply :: rest)) := by
  have hchoice := isObject_choiceOf h
  rw [choiceOf, Json.member] at hchoice
  rw [choiceOf, Json.member]
  cases hchoices : reply.get? "choices" with
  | none =>
    rw [hchoices] at hchoice
    cases hchoice
  | some choices =>
    rw [hchoices] at hchoice
    cases choices with
    | arr items =>
      cases items with
      | nil => cases hchoice
      | cons choice rest => exact ⟨rest, rfl⟩
    | _ => cases hchoice

theorem isObject_reply (h : (bodyOf reply).isObject = true) : reply.isObject = true := by
  obtain ⟨rest, hrest⟩ := exists_choices h
  cases reply with
  | obj members => rfl
  | _ => cases hrest

theorem choiceOf_asChunk (h : (bodyOf reply).isObject = true) :
    choiceOf (asChunk reply) = asDeltaChoice (choiceOf reply) := by
  obtain ⟨rest, hrest⟩ := exists_choices h
  have hchoices : reply.member "choices" = .arr (choiceOf reply :: rest) := by
    rw [Json.member, hrest, Option.getD_some]
  rw [choiceOf, asChunk, Json.member_withMember_self (isObject_reply h), hchoices]
  rfl

theorem get?_asChunk (h : (bodyOf reply).isObject = true) {name : String} (hne : name ≠ "choices") :
    (asChunk reply).get? name = reply.get? name := by
  rw [asChunk, Json.get?_withMember (isObject_reply h), if_neg hne]

theorem deltaOf_asChunk (h : (bodyOf reply).isObject = true) :
    deltaOf (asChunk reply) = asDelta (bodyOf reply) := by
  rw [deltaOf, choiceOf_asChunk h, asDeltaChoice,
    Json.member_withMember_self (Json.isObject_withoutMember (isObject_choiceOf h)), bodyOf]

theorem contentOf_asChunk (h : (bodyOf reply).isObject = true) :
    contentOf (asChunk reply) = ((bodyOf reply).member "content").strOrEmpty := by
  rw [contentOf, deltaOf_asChunk h, asDelta]
  split
  · rfl
  · rw [Json.member_withMember_of_ne h (by decide)]

theorem finishReason_asChunk (h : (bodyOf reply).isObject = true) :
    (choiceOf (asChunk reply)).member "finish_reason" =
      (choiceOf reply).member "finish_reason" := by
  rw [choiceOf_asChunk h, asDeltaChoice,
    Json.member_withMember_of_ne (Json.isObject_withoutMember (isObject_choiceOf h)) (by decide),
    Json.member_withoutMember_of_ne (by decide)]

theorem usage_asChunk (h : (bodyOf reply).isObject = true) :
    usage (asChunk reply) = usage reply := by
  rw [usage, get?_asChunk h (by decide), usage]

theorem fragment_withIndex {call : Json} (h : call.isObject = true) (i : Json) :
    Fragment.ofJson (call.withMember "index" i) = .ofJson call := by
  rw [Fragment.ofJson, Json.member_withMember_of_ne h (by decide),
    Json.member_withMember_of_ne h (by decide), Fragment.ofJson]

theorem calls_asChunk (h : (bodyOf reply).isObject = true) :
    ((deltaOf (asChunk reply)).member "tool_calls").items?.getD [] = numbered (callsOf reply) := by
  rw [deltaOf_asChunk h, asDelta, callsOf]
  split
  · rename_i hnone
    rw [hnone]
    rfl
  · rename_i calls hsome
    rw [Json.member_withMember_self h, hsome]
    rfl

/-- A chunk that was read does not number more calls than there are words of 64 bits. -/
theorem lt_count_of_ranged (h : (bodyOf reply).isObject = true) (hranged : (asChunk reply).Ranged)
    {call : Json} {i : Nat} (hcall : call.isObject = true)
    (hmem : (call, i) ∈ (callsOf reply).zipIdx) :
    i < Word.count 64 := by
  have hnumbered : call.withMember "index" (.nat i)
      ∈ ((deltaOf (asChunk reply)).member "tool_calls").items?.getD [] := by
    rw [calls_asChunk h]
    exact List.mem_map_of_mem hmem
  have hindex :=
    ((((hranged.member "choices").nth 0).member "delta").member "tool_calls").of_mem_items
    hnumbered |>.member "index"
  rw [Json.member_withMember_self hcall] at hindex
  exact hindex.nat_lt

theorem fragmentsOf_asChunk (h : (bodyOf reply).isObject = true) (hranged : (asChunk reply).Ranged)
    (hcalls : ∀ call ∈ callsOf reply, call.isObject = true) :
    fragmentsOf (asChunk reply) = (callsOf reply).zipIdx.map fun (call, i) =>
      (i, .ofJson call) := by
  rw [fragmentsOf, calls_asChunk h, numbered, List.map_map]
  refine List.map_congr_left ?_
  rintro ⟨call, i⟩ hmem
  have hobject : call.isObject = true := hcalls call (List.fst_mem_of_mem_zipIdx hmem)
  simp only [Function.comp_apply, fragmentOf]
  rw [Json.member_withMember_self hobject,
    Json.nat64?_nat (lt_count_of_ranged h hranged hobject hmem), fragment_withIndex hobject,
    Option.getD_some]

/-! ### What is read of it -/

/-- What a call gives when it comes in one fragment. -/
def streamedCall (call : Json) : ToolCall :=
  let function := call.member "function"
  ⟨(call.member "id").strOrEmpty, (function.member "name").strOrEmpty,
    (function.member "arguments").strOrEmpty⟩

theorem toCall_grow (call : Json) : (grow none (.ofJson call)).toCall = streamedCall call := by
  have hid (id : String) : (if id = "" then "" else id) = id := by
    split_ifs with h
    · exact h.symm
    · rfl
  rw [grow, Option.getD_none, CallParts.add_eq]
  simp only [CallParts.toCall, hid, String.toList_empty, List.nil_prefix, if_true,
    String.empty_append]
  rfl

theorem usage_eq (chunk : Json) :
    (if (chunk.member "usage").isObject then usage chunk else {}) = usage chunk := by
  split_ifs with hobject
  · rfl
  · have hnone : (chunk.get? "usage").filter Json.isObject = none := by
      cases h : chunk.get? "usage" with
      | none => rfl
      | some report =>
        rw [Json.member, h, Option.getD_some] at hobject
        rw [Option.filter_some, if_neg hobject]
    rw [usage, hnone]

/-- What a chunk gives when it is all that comes before the end mark. -/
theorem answer_chunk {line last : String} {chunk : Json} (hchunk : chunk? line = some chunk)
    (herror : chunk.present? "error" = none) (hlast : dataOf? last = some "[DONE]") :
    assembly.answer [line, last] =
      .ok ⟨{ role := .assistant
             content := .plain (contentOf chunk)
             toolCalls :=
               ((collect grow [] (fragmentsOf chunk)).filter (·.2.isCall)).map (·.2.toCall) },
            ((choiceOf chunk).member "finish_reason").str?, usage chunk⟩ := by
  have hend (p : Partial) : p.feed last = .ok (none, { p with isDone := true }) := by
    simp only [Partial.feed, hlast]
  have hfeed : assembly.feedAll assembly.start [line, last]
      = .ok { (Partial.takeChunk {} chunk).2 with isDone := true } := by
    simp only [Assembly.feedAll, assembly_feed, Partial.feed_chunk _ hchunk, herror, hend]
    rfl
  rw [Assembly.answer_of_feedAll hfeed, Partial.takeChunk_snd Indexed.ascending_nil]
  simp [assembly, Partial.finish, Partial.toolCalls, usage_eq]

theorem answer_of_error {line : String} {chunk error : Json} (hchunk : chunk? line = some chunk)
    (herror : chunk.present? "error" = some error) (lines : List String) :
    assembly.answer (line :: lines) = .error (reportedFailure error) := by
  rw [Assembly.answer, Assembly.feedAll, assembly_feed, Partial.feed_chunk _ hchunk, herror]
  rfl

/-- The calls of a stream are those of the reply. -/
theorem toolCalls_asChunk (h : (bodyOf reply).isObject = true) (hranged : (asChunk reply).Ranged)
    (hnames : ∀ call ∈ callsOf reply, ((call.member "function").member "name").strOrEmpty ≠ "") :
    ((collect grow [] (fragmentsOf (asChunk reply))).filter (·.2.isCall)).map (·.2.toCall)
      = (callsOf reply).map streamedCall := by
  have hcalls : ∀ call ∈ callsOf reply, call.isObject = true := by
    intro call hcall
    have hfunction : call.member "function" ≠ .null := by
      intro hnull
      have hname := hnames call hcall
      rw [hnull] at hname
      exact hname rfl
    exact Json.isObject_of_member_ne_null hfunction
  have hascending :
      Ascending ((callsOf reply).zipIdx.map fun (call, i) => (i, Fragment.ofJson call)) :=
    Indexed.ascending_zipIdx _ _
  -- a call with a name is not left out
  have hall : ∀ entry ∈ (callsOf reply).zipIdx.map fun (call, i) => (i, grow none (.ofJson call)),
      entry.2.isCall = true := by
    intro entry hentry
    obtain ⟨⟨call, i⟩, hmem, rfl⟩ := List.mem_map.mp hentry
    have hcall : call ∈ callsOf reply := List.fst_mem_of_mem_zipIdx hmem
    have hname : (grow none (.ofJson call)).name ≠ "" := by
      rw [show (grow none (.ofJson call)).name = (streamedCall call).name from
        congrArg ToolCall.name (toCall_grow call)]
      exact hnames call hcall
    simp [CallParts.isCall, hname]
  calc ((collect grow [] (fragmentsOf (asChunk reply))).filter (·.2.isCall)).map (·.2.toCall)
      = (((callsOf reply).zipIdx.map fun (call, i) => (i, grow none (.ofJson call))).filter
          (·.2.isCall)).map (·.2.toCall) := by
        rw [fragmentsOf_asChunk h hranged hcalls, Indexed.collect_of_ascending grow hascending,
          List.map_map]
        rfl
    _ = ((callsOf reply).zipIdx.map Prod.fst).map streamedCall := by
        rw [List.filter_eq_self.mpr hall, List.map_map, List.map_map]
        exact List.map_congr_left fun entry _ => toCall_grow entry.1
    _ = (callsOf reply).map streamedCall := by rw [List.zipIdx_map_fst]

/-! ### When the answers agree -/

theorem argumentText_eq_iff (v : Json) :
    argumentText v = v.strOrEmpty ↔ v = .null ∨ ∃ text, v = .str text := by
  cases v with
  | null => simp [argumentText, Json.strOrEmpty, Json.str?]
  | str s => simp [argumentText, Json.strOrEmpty, Json.str?]
  | _ => simp [argumentText, Json.strOrEmpty, Json.str?, Json.print_ne_empty]

theorem callOf_eq_iff (call : Json) :
    callOf call = streamedCall call ↔
      (call.member "function").member "arguments" = .null ∨
        ∃ text, (call.member "function").member "arguments" = .str text := by
  rw [← argumentText_eq_iff, callOf, streamedCall]
  simp

theorem completion_eq (h : (bodyOf reply).isObject = true) (herror : reply.get? "error" = none) :
    completion reply =
      .ok ⟨messageOf (bodyOf reply), ((choiceOf reply).member "finish_reason").str?,
      usage reply⟩ := by
  obtain ⟨rest, hrest⟩ := exists_choices h
  have hbody : ((choiceOf reply).get? "message").filter Json.isObject = some (bodyOf reply) :=
    Json.filter_isObject h
  have hreason : ((choiceOf reply).get? "finish_reason").bind Json.str?
      = ((choiceOf reply).member "finish_reason").str? := by
    rw [Json.member]
    cases (choiceOf reply).get? "finish_reason" <;> rfl
  rw [completion, herror]
  simp only [message, hrest, Option.bind_some, Json.item?, List.getElem?_cons_zero, hbody, hreason]
  rfl

/-- **Agreement.**  A reply whose calls have names and the stream of its chunk give the same answer,
or the same failure, exactly when the reply has no error member of `null` and the arguments of its
calls, if they are read at all, are texts or `null`. -/
theorem answer_eq_completion_iff {line last : String} (h : (bodyOf reply).isObject = true)
    (hnames : ∀ call ∈ callsOf reply, ((call.member "function").member "name").strOrEmpty ≠ "")
    (hchunk : chunk? line = some (asChunk reply)) (hlast : dataOf? last = some "[DONE]") :
    assembly.answer [line, last] = completion reply ↔
      reply.get? "error" ≠ some .null ∧ (reply.get? "error" = none → ∀ call ∈ callsOf reply,
        (call.member "function").member "arguments" = .null ∨
          ∃ text, (call.member "function").member "arguments" = .str text) := by
  obtain ⟨data, -, hparse⟩ := exists_data_of_chunk? hchunk
  have hranged : (asChunk reply).Ranged := Json.ranged_of_parse hparse
  have hpresent : (asChunk reply).present? "error" = reply.present? "error" := by
    rw [Json.present?, get?_asChunk h (by decide), Json.present?]
  cases herror : reply.get? "error" with
  | none =>
    have hnone : (asChunk reply).present? "error" = none := by
      rw [hpresent, Json.present?, herror]
      rfl
    rw [answer_chunk hchunk hnone hlast, completion_eq h herror, toolCalls_asChunk h hranged hnames,
      contentOf_asChunk h, finishReason_asChunk h, usage_asChunk h]
    have hcalls : (callsOf reply).map streamedCall = (callsOf reply).map callOf ↔
        ∀ call ∈ callsOf reply, (call.member "function").member "arguments" = .null ∨
          ∃ text, (call.member "function").member "arguments" = .str text := by
      rw [eq_comm, List.map_inj_left]
      exact forall₂_congr fun call _ => callOf_eq_iff call
    rw [← hcalls]
    simp [messageOf, callsOf]
  | some error =>
    by_cases hnull : error = .null
    · -- a chunk with an error of `null` is taken
      subst hnull
      have hnone : (asChunk reply).present? "error" = none := by
        rw [hpresent, Json.present?, herror]
        rfl
      rw [answer_chunk hchunk hnone hlast, completion, herror]
      simp
    · have hsome : (asChunk reply).present? "error" = some error := by
        rw [hpresent, Json.present?, herror]
        cases error with
        | null => exact absurd rfl hnull
        | _ => rfl
      rw [answer_of_error hchunk hsome, completion, herror]
      simp [hnull]

end

/-- A reply that calls one tool. -/
def replyWith (arguments : Json) : Json :=
  .obj [("choices", .arr [.obj [("message", .obj [("tool_calls", .arr [.obj [("function",
    .obj [("arguments", arguments), ("name", .str "ls")]), ("id", .str "c1")]])])]])]

theorem answer_eq_completion_iff_ls :
    (bodyOf (replyWith (.str "[]"))).isObject = true ∧
    (∀ call ∈ callsOf (replyWith (.str "[]")), ((call.member "function").member "name").strOrEmpty ≠
      "") ∧
    chunk? (dataLine (asChunk (replyWith (.str "[]")))) = some (asChunk (replyWith (.str "[]"))) ∧
    dataOf? "data: [DONE]" = some "[DONE]" ∧
    assembly.answer [dataLine (asChunk (replyWith (.str "[]"))), "data: [DONE]"]
      = completion (replyWith (.str "[]")) ∧
    assembly.answer [dataLine (asChunk (replyWith (.obj []))), "data: [DONE]"]
      ≠ completion (replyWith (.obj [])) := by
  have hend : dataOf? "data: [DONE]" = some "[DONE]" := by decide
  have hobject (arguments : Json) : (bodyOf (replyWith arguments)).isObject = true := rfl
  have hcalls (arguments : Json) : callsOf (replyWith arguments)
      = [.obj [("function", .obj [("arguments", arguments), ("name", .str "ls")]),
          ("id", .str "c1")]] := rfl
  have hnames (arguments : Json) : ∀ call ∈ callsOf (replyWith arguments),
      ((call.member "function").member "name").strOrEmpty ≠ "" := by
    intro call hcall
    rw [hcalls, List.mem_singleton] at hcall
    subst hcall
    show "ls" ≠ ""
    decide
  have htext : chunk? (dataLine (asChunk (replyWith (.str "[]")))) =
      some (asChunk (replyWith (.str "[]"))) :=
    chunk?_dataLine (by decide +kernel)
  have hobjectArguments : chunk? (dataLine (asChunk (replyWith (.obj []))))
      = some (asChunk (replyWith (.obj []))) := chunk?_dataLine (by decide +kernel)
  refine ⟨hobject _, hnames _, htext, hend, ?_, ?_⟩
  · refine (answer_eq_completion_iff (hobject _) (hnames _) htext hend).mpr ⟨by decide, ?_⟩
    intro _ call hcall
    rw [hcalls, List.mem_singleton] at hcall
    subst hcall
    exact Or.inr ⟨"[]", rfl⟩
  · intro hagree
    obtain ⟨-, hargs⟩ :=
      (answer_eq_completion_iff (hobject _) (hnames _) hobjectArguments hend).mp hagree
    obtain hnull | ⟨text, htext⟩ := hargs rfl _ (List.mem_singleton_self _)
    · cases hnull
    · cases htext

end Parley.Wire.OpenAi
