import Parley.Proofs.Provider.Positions
import Parley.Proofs.Wire.Counts

/-!
# Totals of tokens

An endpoint gets a reply (`Endpoint.reply`) and reads an answer from it, at once or at the end of a
stream (`Answers`). `totals_of_reported`: if the reply has the counts and no total (`Reported`), the
total of the answer is their sum when that is less than `2 ^ 31`, and never otherwise.
-/

namespace Parley.Provider

open Chat (Message ToolSchema)
open Net (Network Reply Request)
open Wire (Chunk Completion Failure Options Reports TransportFailure answerOf reportOf)

/-! ### Replies and answers -/

/-- The reply that an endpoint gets in a format when it asks for an answer, streamed or not.  In the
Gemini format, nothing is streamed. -/
def Endpoint.reply (e : Endpoint) (streamed : Bool) (history : List Message)
    (tools : List ToolSchema) (options : Options) (n : Network) : ApiFormat → Except Failure Reply
  | .openAi =>
    (call (e.openAiPost "chat/completions")
      (Wire.OpenAi.chatPayload e.model e.maxTokens? history tools options streamed) .ok n).1
  | .anthropic =>
    (call e.anthropicPost
      (.ok (Wire.Anthropic.chatPayload e.model e.maxTokens? history tools options streamed))
      .ok n).1
  | .gemini =>
    (call (e.geminiPost "generateContent")
      (.ok (Wire.Gemini.chatPayload e.maxTokens? history tools options)) .ok n).1
  | .ollama =>
    (call (e.ollamaPost "api/chat")
      (Wire.Ollama.chatPayload e.model e.maxTokens? history tools options streamed) .ok n).1

/-- Whether a model gives an answer, at once or at the end of a stream. -/
inductive Answers {σ : Type} (m : Model σ) (history : List Message) (tools : List ToolSchema)
    (options : Options) (s : σ) (c : Completion) : Bool → Prop where
  | whole (h : (m.complete history tools options s).1 = .ok c) :
    Answers m history tools options s c false
  | streamed {items : List (Except Failure Chunk)}
    (h : (m.stream history tools options s).1 = .ok items) (hdone : .ok (.done c) ∈ items) :
    Answers m history tools options s c true

/-- Whether a reply, streamed or not, reports the counts `a` and `b`, and no total.  In a stream,
the last report is the one that is meant. -/
inductive Reported (reply : Reply) (a b : Nat) : ApiFormat → Bool → Prop where
  | whole {f : ApiFormat} {v : Json} (hjson : reply.body.json = .ok v)
    (h : Reports f (reportOf f v) a b) :
    Reported reply a b f false
  | gemini {v : Json} (hjson : reply.body.json = .ok v)
    (h : Reports .gemini (reportOf .gemini v) a b) :
    Reported reply a b .gemini true
  | openAi {report : Json} (hlast : (Wire.OpenAi.reports reply.body.lines).getLast? = some report)
    (h : Reports .openAi report a b) : Reported reply a b .openAi true
  | anthropic (h : Wire.Anthropic.Reported (Wire.Anthropic.eventsOf none reply.body.lines) a b) :
    Reported reply a b .anthropic true
  | ollama {chunk : Json} (hlast : Wire.Ollama.lastChunk? reply.body.lines = some chunk)
    (h : Reports .ollama chunk a b) : Reported reply a b .ollama true

variable {e : Endpoint} {f : ApiFormat} {streamed : Bool} {history : List Message}
  {tools : List ToolSchema} {options : Options} {n : Network} {reply : Reply}
  {c : Completion} {a b : Nat}

/-- What is read is the reply. -/
theorem call_of_reply {α : Type} {post : Json → Except TransportFailure Request}
    {payload : Except Failure Json} (h : (call post payload .ok n).1 = .ok reply)
    (read : Reply → Except Failure α) :
    (call post payload read n).1 = read reply := by
  rw [call_eq_bind, h]
  rfl

theorem answerOf_of_reading {v : Json} (hjson : reply.body.json = .ok v)
    (h : reading (answerOf f) reply = .ok c) : answerOf f v = .ok c := by
  rwa [reading, hjson] at h

theorem eq_of_mem_wholeStream {whole : Completion} (h : .ok (.done c) ∈ Model.wholeStream whole) :
    c = whole := by
  unfold Model.wholeStream at h
  split at h <;> simpa using h

theorem totals_of_answerOf {v : Json} (hreports : Reports f (reportOf f v) a b)
    (h : answerOf f v = .ok c) :
    c.usage.Totals a b := by
  rw [Wire.usage_of_answerOf h hreports.isObject]
  exact hreports.totals

theorem Endpoint.complete_of_reply (h : e.reply false history tools options n f = .ok reply) :
    ((e.remote f).complete history tools options n).1 = reading (answerOf f) reply := by
  cases f with
  | openAi =>
    simp only [remote, openAi]
    exact call_of_reply h _
  | anthropic =>
    simp only [remote, anthropic]
    exact call_of_reply h _
  | gemini =>
    simp only [remote, gemini, geminiComplete]
    exact call_of_reply h _
  | ollama =>
    simp only [remote, ollama]
    exact call_of_reply h _

/-- The stream that is read from a reply.  In the Gemini format, it is made of the answer. -/
def itemsOf : ApiFormat → Reply → Except Failure (List (Except Failure Chunk))
  | .openAi => streaming Wire.OpenAi.assembly
  | .anthropic => streaming Wire.Anthropic.assembly
  | .gemini => fun reply => (reading (answerOf .gemini) reply).map Model.wholeStream
  | .ollama => streaming Wire.Ollama.assembly

theorem Endpoint.stream_of_reply (h : e.reply true history tools options n f = .ok reply) :
    ((e.remote f).stream history tools options n).1 = itemsOf f reply := by
  cases f with
  | openAi =>
    simp only [remote, openAi]
    exact call_of_reply h _
  | anthropic =>
    simp only [remote, anthropic]
    exact call_of_reply h _
  | gemini =>
    simp only [remote, gemini, Model.streamOf, geminiComplete]
    rw [call_of_reply h]
    rfl
  | ollama =>
    simp only [remote, ollama]
    exact call_of_reply h _

/-! ### Totals -/

/-- **Totals are exact below `2 ^ 31`, and only there.**  If a reply has counts that are not
negative and no total, the total of the answer, streamed or not, is their sum exactly when that is
less than `2 ^ 31`.  Then the answer has the counts as they were sent, and nothing overflows on the
way to the total.  Above, as long as a signed word of 64 bits holds each count, the total is what is
left of the sum in 32 bits, with a sign. -/
theorem totals_of_reported (hreply : e.reply streamed history tools options n f = .ok reply)
    (hreported : Reported reply a b f streamed)
    (hanswer : Answers (e.remote f) history tools options n c streamed) : c.usage.Totals a b := by
  cases hanswer with
  | whole hcomplete =>
    rw [Endpoint.complete_of_reply hreply] at hcomplete
    cases hreported with
    | whole hjson hreports =>
      exact totals_of_answerOf hreports (answerOf_of_reading hjson hcomplete)
  | streamed hstream hdone =>
    rw [Endpoint.stream_of_reply hreply] at hstream
    cases hreported with
    | gemini hjson hreports =>
      obtain ⟨whole, hwhole, rfl⟩ := map_eq_ok_iff.mp hstream
      rw [eq_of_mem_wholeStream hdone]
      exact totals_of_answerOf hreports (answerOf_of_reading hjson hwhole)
    | openAi hlast hreports =>
      cases hstream
      rw [Wire.OpenAi.usage_of_done rfl hdone, hlast]
      exact hreports.totals
    | anthropic hevents =>
      cases hstream
      rw [Wire.Anthropic.usage_of_done rfl hdone]
      exact hevents.totals _ _
    | ollama hlast hreports =>
      cases hstream
      -- the chunk that ended the stream is the one that the counts are reported in
      obtain ⟨chunk, hchunk, husage⟩ := Wire.Ollama.usage_of_done rfl hdone
      obtain rfl := Option.some.inj (hchunk.symm.trans hlast)
      rw [husage]
      exact hreports.totals

/-! ### A small sum and a large one -/

/-- A reply in the Ollama format with counts, which is also a stream of one line. -/
def countsReply (a b : Nat) : Json :=
  .object [("message", .object [("content", .str "hi")]), ("done", .bool true),
    ("prompt_eval_count", .nat a), ("eval_count", .nat b)]

/-- What is read from it. -/
def countsAnswer (a b : Nat) : Completion :=
  { message := Message.assistant.withText "hi",
    usage := .ofCounts (some (.ofInt a)) (some (.ofInt b)) none }

/-- 3 and 4 make 7, but `2 ^ 31` and none make less. -/
theorem totals_of_reported_small :
    (∃ c,
      ((smallEndpoint.remote .ollama).complete [] [] {} (answering (countsReply 3 4))).1 = .ok c ∧
      c.usage.total?.map Int32.toInt = some 7) ∧
    ∃ c, ((smallEndpoint.remote .ollama).stream [] [] {} (answering (countsReply (2 ^ 31) 0))).1 =
      .ok [.ok (.delta "hi"), .ok (.done c)] ∧ c.usage.total?.map Int32.toInt = some (-2 ^ 31) := by
  have hreply : ∀ counts ∈ [(false, 3, 4), (true, 2 ^ 31, 0)],
      smallEndpoint.reply counts.1 [] [] {}
          (answering (countsReply counts.2.1 counts.2.2)) .ollama =
        .ok ⟨200, [], .ofBytes (Text.Utf8.encode (countsReply counts.2.1 counts.2.2).print)⟩ := by
    decide +kernel
  have hreports (a b : Nat) : Reports .ollama (countsReply a b) a b :=
    ⟨rfl, rfl, fun _ h => nomatch h⟩
  have hcomplete :
      ((smallEndpoint.remote .ollama).complete [] [] {} (answering (countsReply 3 4))).1 =
      .ok (countsAnswer 3 4) := by decide +kernel
  have hsmall := totals_of_reported (hreply (false, 3, 4) (by decide))
    (.whole (by decide +kernel) (hreports 3 4))
    (.whole hcomplete)
  have hstream :
      ((smallEndpoint.remote .ollama).stream [] [] {} (answering (countsReply (2 ^ 31) 0))).1 =
      .ok [.ok (.delta "hi"), .ok (.done (countsAnswer (2 ^ 31) 0))] := by decide +kernel
  have hlarge := totals_of_reported (hreply (true, 2 ^ 31, 0) (by decide))
    (.ollama (by decide +kernel) (hreports (2 ^ 31) 0))
    (.streamed hstream (List.mem_cons_of_mem _ List.mem_cons_self))
  exact ⟨⟨_, hcomplete, hsmall.total_eq_iff.mpr (by decide)⟩,
    ⟨_, hstream, hlarge.wraps (by decide) (by decide)⟩⟩

end Parley.Provider
