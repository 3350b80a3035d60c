import Parley.Proofs.Json.Members
import Parley.Proofs.Json.Texts
import Parley.Proofs.Wire.Ending
import Parley.Proofs.Wire.Lines

/-!
# Whole and streamed replies in the Ollama format

A streamed reply is a line for each chunk, and blank lines (`Holds`).  Its chunks hold the text of a
whole reply in pieces, its tool calls at one place and, at the end, why the model stopped and the
token counts (`Carries`).  `streamed_chunks_agree` says that such a stream gives the answer of the
whole reply.

The state behind the chunks is `takeAll`.  The tool calls of the answer are those of the base, the
last message that has any.  Only the chunk that carries them can be the base (`base?_takeAll`), and
when it is not, the whole reply has none either.
-/

namespace Parley.Wire.Ollama

open Partial (hasCalls)

/-! ### Lines and chunks -/

/-- Whether lines hold chunks, with blank lines anywhere between them. -/
inductive Holds : List String → List Json → Prop where
  | nil : Holds [] []
  | blank {line : String} {lines : List String} {chunks : List Json} (hline : Text.trim line = "")
    (rest : Holds lines chunks) : Holds (line :: lines) chunks
  | chunk {line : String} {lines : List String} {chunk : Json} {chunks : List Json}
    (hline : Json.parse (Text.trim line) = .ok chunk) (rest : Holds lines chunks) :
    Holds (line :: lines) (chunk :: chunks)

/-- The piece of text that a chunk or a reply holds, which may be empty. -/
def contentOf (chunk : Json) : String := ((chunk.member "message").member "content").strOrEmpty

/-- The tool calls that a chunk or a reply holds, as they stand in it. -/
def callsOf (chunk : Json) : Json := (chunk.member "message").member "tool_calls"

/-- Whether chunks carry a reply. -/
structure Carries (chunks : List Json) (reply : Json) : Prop where
  /-- Each chunk has a message, and none reports an error. -/
  isChunk : ∀ chunk ∈ chunks, errorText? chunk = none ∧ (chunk.member "message").isObject = true
  /-- The text comes in pieces. -/
  content : String.join (chunks.map contentOf) = contentOf reply
  /-- The tool calls come on one chunk, and none on the others. -/
  calls : ∃ before chunk after, chunks = before ++ chunk :: after ∧ callsOf chunk = callsOf reply ∧
    ∀ other ∈ before ++ after, hasCalls (other.member "message") = false
  /-- The last chunk is the end, and it holds what there is beside the message. -/
  last : ∃ before chunk, chunks = before ++ [chunk] ∧ (chunk.member "done").bool? = some true ∧
    ∀ name ∈ ["done_reason", "prompt_eval_count", "eval_count"], chunk.get? name = reply.get? name

/-! ### Taking chunks -/

/-- The state behind chunks. -/
def takeAll (p : Partial) (chunks : List Json) : Partial :=
  chunks.foldl (fun p chunk => (p.takeChunk chunk).2) p

theorem takeMessage_snd (p : Partial) (message : Json) :
    (p.takeMessage message).2 = { p with
      text := p.text ++ (message.member "content").strOrEmpty
      base? := if hasCalls message then some message else p.base?
      last? := some message } := by
  unfold Partial.takeMessage Json.strOrEmpty
  generalize (message.member "content").str? = content?
  rcases content? with _ | content
  · simp
  · by_cases hcontent : content = "" <;> simp [hcontent, Option.filter]

/-- All that a chunk with a message does. -/
theorem takeChunk_snd (p : Partial) {chunk : Json} (h : (chunk.member "message").isObject = true) :
    (p.takeChunk chunk).2 =
      { text := p.text ++ contentOf chunk
        base? := if hasCalls (chunk.member "message") then some (chunk.member "message")
          else p.base?
        last? := some (chunk.member "message")
        finishReason? := if (chunk.member "done").bool?.getD false then finishReason? chunk
          else p.finishReason?
        usage := if (chunk.member "done").bool?.getD false then usage chunk else p.usage
        isDone := (chunk.member "done").bool?.getD false || p.isDone } := by
  have hmessage := takeMessage_snd p (chunk.member "message")
  simp only [Partial.takeChunk, Json.filter_isObject h]
  cases (chunk.member "done").bool?.getD false with
  | true =>
    show { (p.takeMessage (chunk.member "message")).2 with
      isDone := true, finishReason? := finishReason? chunk, usage := usage chunk } = _
    rw [hmessage]
    rfl
  | false => exact hmessage

/-- Chunks are taken one after the other, whatever blank lines stand between them. -/
theorem feedAll_of_holds {lines : List String} {chunks : List Json} (h : Holds lines chunks)
    (p : Partial) (herror : ∀ chunk ∈ chunks, errorText? chunk = none) :
    assembly.feedAll p lines = .ok (takeAll p chunks) := by
  induction h generalizing p with
  | nil => rfl
  | @blank line lines chunks hline _ ih =>
    have hfeed : assembly.feed p line = .ok (none, p) := by
      rw [assembly_feed, Partial.feed, hline]
      rfl
    exact (Assembly.feedAll_cons hfeed lines).trans (ih p herror)
  | @chunk line lines chunk chunks hline _ ih =>
    obtain ⟨hchunk, hchunks⟩ := List.forall_mem_cons.mp herror
    have hne : ¬ (Text.trim line).isEmpty = true := by
      intro hempty
      -- an empty text is no JSON
      rw [String.isEmpty_iff.mp hempty] at hline
      cases hline
    have hfeed : assembly.feed p line = .ok (p.takeChunk chunk) := by
      simp only [assembly_feed, Partial.feed, if_neg hne, hline, hchunk]
    exact (Assembly.feedAll_cons hfeed lines).trans (ih (p.takeChunk chunk).2 hchunks)

theorem takeAll_append (p : Partial) (chunks more : List Json) :
    takeAll p (chunks ++ more) = takeAll (takeAll p chunks) more := List.foldl_append

variable {chunks : List Json}

theorem text_takeAll (p : Partial)
    (h : ∀ chunk ∈ chunks, (chunk.member "message").isObject = true) :
    (takeAll p chunks).text = p.text ++ String.join (chunks.map contentOf) := by
  induction chunks generalizing p with
  | nil => exact (String.append_empty ..).symm
  | cons chunk chunks ih =>
    obtain ⟨hchunk, hchunks⟩ := List.forall_mem_cons.mp h
    show (takeAll (p.takeChunk chunk).2 chunks).text = _
    rw [ih _ hchunks, takeChunk_snd p hchunk, List.map_cons, String.join_cons, String.append_assoc]

/-- Chunks without tool calls leave the base as it is. -/
theorem base?_takeAll (p : Partial) (h : ∀ chunk ∈ chunks, (chunk.member "message").isObject = true)
    (hnone : ∀ chunk ∈ chunks, hasCalls (chunk.member "message") = false) :
    (takeAll p chunks).base? = p.base? := by
  induction chunks generalizing p with
  | nil => rfl
  | cons chunk chunks ih =>
    obtain ⟨hchunk, hchunks⟩ := List.forall_mem_cons.mp h
    obtain ⟨hfirst, hrest⟩ := List.forall_mem_cons.mp hnone
    show (takeAll (p.takeChunk chunk).2 chunks).base? = _
    rw [ih _ hchunks hrest, takeChunk_snd p hchunk, if_neg (Bool.eq_false_iff.mp hfirst)]

theorem hasCalls_eq_false_iff (message : Json) :
    hasCalls message = false ↔ (message.member "tool_calls").items?.getD [] = [] := by
  rw [hasCalls, Bool.not_eq_false', List.isEmpty_iff]

/-- The base of the answer, or the last message without one, has the tool calls of the reply. -/
theorem Carries.exists_base {reply : Json} (h : Carries chunks reply) :
    ∃ base, (takeAll {} chunks).base?.or (takeAll {} chunks).last? = some base ∧
      ((base.member "tool_calls").items?.getD []) = ((callsOf reply).items?.getD []) := by
  obtain ⟨before, last, hlast, -⟩ := h.last
  obtain ⟨earlier, carrier, later, rfl, hcalls, hothers⟩ := h.calls
  have hobject : ∀ chunk ∈ earlier ++ carrier :: later, (chunk.member "message").isObject = true :=
    fun chunk hchunk => (h.isChunk chunk hchunk).2
  by_cases hcarrier : hasCalls (carrier.member "message") = true
  · have hbase :
        (takeAll {} (earlier ++ carrier :: later)).base? = some (carrier.member "message") := by
      -- what follows the carrier leaves the base as it is
      rw [takeAll_append]
      show (takeAll ((takeAll {} earlier).takeChunk carrier).2 later).base? = _
      rw [base?_takeAll _ (fun chunk hchunk => hobject chunk (by simp [hchunk]))
        (fun chunk hchunk => hothers chunk (by simp [hchunk])),
        takeChunk_snd _ (hobject carrier (by simp)), if_pos hcarrier]
    rw [hbase, Option.some_or, ← hcalls]
    exact ⟨_, rfl, rfl⟩
  · -- no chunk has tool calls, and neither has the reply
    have hnone : ∀ chunk ∈ earlier ++ carrier :: later,
        hasCalls (chunk.member "message") = false := by
      intro chunk hchunk
      rcases List.mem_append.mp hchunk with hearlier | hlater
      · exact hothers chunk (by simp [hearlier])
      · rcases List.mem_cons.mp hlater with rfl | hlater
        · exact Bool.eq_false_iff.mpr hcarrier
        · exact hothers chunk (by simp [hlater])
    have hbase : (takeAll {} (earlier ++ carrier :: later)).base? = none :=
      base?_takeAll _ hobject hnone
    have hmem : last ∈ earlier ++ carrier :: later := by simp [hlast]
    have hlast? :
        (takeAll {} (earlier ++ carrier :: later)).last? = some (last.member "message") := by
      rw [hlast, takeAll_append]
      show (((takeAll {} before).takeChunk last).2).last? = _
      rw [takeChunk_snd _ (hobject last hmem)]
    have hreply : (callsOf reply).items?.getD [] = [] := by
      rw [← hcalls]
      exact (hasCalls_eq_false_iff _).mp (Bool.eq_false_iff.mpr hcarrier)
    rw [hbase, hlast?, hreply]
    exact ⟨_, rfl, (hasCalls_eq_false_iff _).mp (hnone last hmem)⟩

/-- **Agreement.**  Chunks that carry a reply give its answer, in whatever pieces the text comes,
wherever the tool calls stand and whatever blank lines there are. -/
theorem streamed_chunks_agree {lines : List String} {reply : Json}
    (herror : errorText? reply = none) (hmessage : (reply.member "message").isObject = true)
    (hlines : Holds lines chunks) (hcarries : Carries chunks reply) :
    ∃ whole, completion reply = .ok whole ∧ assembly.answer lines = .ok whole := by
  have hfeed : assembly.feedAll assembly.start lines = .ok (takeAll {} chunks) :=
    feedAll_of_holds hlines _ fun chunk hchunk => (hcarries.isChunk chunk hchunk).1
  have hwhole : completion reply
      = .ok ⟨messageOf (reply.member "message") (contentOf reply), finishReason? reply,
          usage reply⟩ := by
    simp only [completion, herror, Json.filter_isObject hmessage]
    rfl
  obtain ⟨base, hbase, hcalls⟩ := hcarries.exists_base
  obtain ⟨before, last, rfl, hdone, hfields⟩ := hcarries.last
  have hobject : ∀ chunk ∈ before ++ [last], (chunk.member "message").isObject = true :=
    fun chunk hchunk => (hcarries.isChunk chunk hchunk).2
  have htext : (takeAll {} (before ++ [last])).text = contentOf reply := by
    rw [text_takeAll _ hobject, hcarries.content]
    exact String.empty_append ..
  have hstate : takeAll {} (before ++ [last]) = ((takeAll {} before).takeChunk last).2 :=
    takeAll_append ..
  rw [takeChunk_snd _ (hobject last (by simp)), hdone] at hstate
  have hisDone : (takeAll {} (before ++ [last])).isDone = true := by
    rw [hstate]
    rfl
  have hreason : (takeAll {} (before ++ [last])).finishReason? = finishReason? reply := by
    rw [hstate]
    show finishReason? last = _
    rw [finishReason?, hfields _ (by simp), finishReason?]
  have husage : (takeAll {} (before ++ [last])).usage = usage reply := by
    rw [hstate]
    show usage last = _
    rw [usage, Usage.count?, Usage.count?, hfields _ (by simp), hfields _ (by simp)]
    rfl
  refine ⟨_, hwhole, ?_⟩
  rw [Assembly.answer_of_feedAll hfeed]
  show (takeAll {} (before ++ [last])).finish = _
  rw [Partial.finish, if_pos hisDone, hbase]
  dsimp only
  rw [htext, hreason, husage, messageOf, hcalls]
  rfl

theorem Holds.print {members : List (String × Json)} {lines : List String}
    (hparse : Json.parseChars (Json.obj members).chars = .ok (.obj members))
    (rest : Holds lines chunks) :
    Holds ((Json.obj members).print :: lines) (.obj members :: chunks) := by
  refine .chunk ?_ rest
  rw [trim_print]
  exact Json.parse_print hparse

/-- A tool call as it stands in a message. -/
def lsCall : Json := .obj [("function", .obj [("arguments", .obj []), ("name", .str "ls")])]

def textChunk (text : String) : Json := .obj [("message", .obj [("content", .str text)])]

def callChunk : Json := .obj [("message", .obj [("tool_calls", .arr [lsCall])])]

/-- The last chunk, or with another message the whole reply. -/
def lastWith (message : List (String × Json)) : Json :=
  .obj [("done", .bool true), ("done_reason", .str "stop"), ("eval_count", .nat 2),
    ("message", .obj message)]

def lsReply : Json := lastWith [("content", .str "ab"), ("tool_calls", .arr [lsCall])]

/-- Chunks that carry it, with the tool call between the pieces of text. -/
def lsChunks : List Json := [textChunk "a", callChunk, lastWith [("content", .str "b")]]

theorem streamed_chunks_agree_ls :
    errorText? lsReply = none ∧ (lsReply.member "message").isObject = true ∧
      Holds [(textChunk "a").print, " ", callChunk.print, "",
        (lastWith [("content", .str "b")]).print] lsChunks ∧
      Carries lsChunks lsReply ∧
      ∃ whole, completion lsReply = .ok whole ∧
        assembly.answer [(textChunk "a").print, " ", callChunk.print, "",
          (lastWith [("content", .str "b")]).print] = .ok whole := by
  have hlines : Holds [(textChunk "a").print, " ", callChunk.print, "",
      (lastWith [("content", .str "b")]).print] lsChunks := by
    refine .print (by decide +kernel) (.blank (by decide) (.print (by decide +kernel) ?_))
    exact .blank (by decide) (.print (by decide +kernel) .nil)
  have hcarries : Carries lsChunks lsReply := by
    refine ⟨by decide, by decide, ?_, ?_⟩
    · exact ⟨[textChunk "a"], callChunk, [lastWith [("content", .str "b")]], rfl, rfl, by decide⟩
    · exact ⟨[textChunk "a", callChunk], lastWith [("content", .str "b")], rfl, rfl, by decide⟩
  exact ⟨rfl, rfl, hlines, hcarries, streamed_chunks_agree rfl rfl hlines hcarries⟩

end Parley.Wire.Ollama
