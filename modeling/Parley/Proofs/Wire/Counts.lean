import Mathlib.Algebra.Group.Int.Defs
import Mathlib.Algebra.Group.Nat.Defs
import Parley.Proofs.Json.Members
import Parley.Proofs.Outcomes
import Parley.Proofs.Wire.Deltas.Anthropic
import Parley.Proofs.Wire.Echo.Reply
import Parley.Proofs.Wire.Fragments

/-!
# What becomes of token counts

A model reports how many tokens it read and wrote, and the total is filled in where it reports none.
The counts are kept in words of 32 bits, and `Totals` says how far that can be trusted: the total is
the sum as long as the sum fits such a word, and above it is off by a multiple of `2 ^ 32`
(`totals_of_eq`).

In a stream, counts may be reported more than once, and it is said for each format which report is
the one that counts (`OpenAi.reports`, `Anthropic.Reported`, `Ollama.lastChunk?`).
-/

namespace Parley.Wire

open Provider (ApiFormat)

/-! ### Counts in words -/

namespace Usage

/-- What becomes of the counts `a` and `b`. -/
structure Totals (u : Usage) (a b : Nat) : Prop where
  /-- The total is their sum when that fits a word, and only then. -/
  total_eq_iff : u.total?.map Int32.toInt = some ((a + b : Nat) : Int) ↔ a + b < 2 ^ 31
  /-- Then the counts are kept as they are, so their sum does not overflow. -/
  parts : a + b < 2 ^ 31 → u.input?.map Int32.toInt = some (a : Int) ∧
    u.output?.map Int32.toInt = some (b : Int)
  /-- Otherwise the total is the sum of the lower 32 bits. -/
  wraps : a < 2 ^ 63 → b < 2 ^ 63 →
    u.total?.map Int32.toInt = some (((a + b : Nat) : Int).bmod (2 ^ 32))

theorem toInt_ofInt_of_lt {n : Nat} (h : n < 2 ^ 31) : (Int32.ofInt n).toInt = n := by
  rw [Int32.toInt_ofInt]
  exact Int.bmod_eq_of_le_mul_two (by simp [Int32.size]; omega) (by simp [Int32.size]; omega)

theorem totals_of_eq {u : Usage} {a b : Nat}
    (h : a < 2 ^ 63 → b < 2 ^ 63 → u = ofCounts (some (.ofInt a)) (some (.ofInt b)) none) :
    u.Totals a b := by
  have hwraps (ha : a < 2 ^ 63) (hb : b < 2 ^ 63) :
      u.total?.map Int32.toInt = some (((a + b : Nat) : Int).bmod (2 ^ 32)) := by
    have htotal : u.total? = some (.ofInt a + .ofInt b) := congrArg total? (h ha hb)
    rw [htotal, Option.map_some, ← Int32.ofInt_add, Int32.toInt_ofInt]
    rfl
  refine ⟨⟨fun htotal => ?_, fun hlt => ?_⟩, fun hlt => ?_, hwraps⟩
  · -- whatever the counts are, the total is a word, so it can only be a sum that fits one
    obtain ⟨total, -, htotal⟩ := Option.map_eq_some_iff.mp htotal
    have hword := total.toInt_lt
    omega
  · rw [hwraps (by omega) (by omega), Int.bmod_eq_of_le_mul_two (by omega) (by omega)]
  · rw [h (by omega) (by omega)]
    exact ⟨congrArg some (toInt_ofInt_of_lt (by omega)),
      congrArg some (toInt_ofInt_of_lt (by omega))⟩

/-- A count is the integer that stands under its name, if there is one. -/
theorem count?_eq (report : Json) (name : String) :
    count? report name = (report.member name).int64?.map Int32.ofInt := by
  rw [count?, Json.member]
  cases report.get? name <;> rfl

theorem count?_of_member {report : Json} {name : String} {n : Nat} (h : report.member name = .nat n)
    (hn : n < 2 ^ 63) : count? report name = some (.ofInt n) := by
  have hcount : (Word.count 63 : Int) = 2 ^ 63 := rfl
  have hword : Word.holdsSigned 64 n = true := by
    rw [Word.holdsSigned, hcount, Bool.and_eq_true, decide_eq_true_eq, decide_eq_true_eq]
    omega
  rw [count?_eq, h, Json.nat, Json.int64?, Json.int?, Option.filter_some, if_pos hword]
  rfl

end Usage

/-! ### Reports -/

/-- The report of a whole reply. -/
def reportOf : ApiFormat → Json → Json
  | .openAi, reply | .anthropic, reply => reply.member "usage"
  | .gemini, reply => reply.member "usageMetadata"
  | .ollama, reply => reply

/-- The name of the count of the history. -/
def inputName : ApiFormat → String
  | .openAi => "prompt_tokens"
  | .anthropic => "input_tokens"
  | .gemini => "promptTokenCount"
  | .ollama => "prompt_eval_count"

/-- The name of the count of the answer. -/
def outputName : ApiFormat → String
  | .openAi => "completion_tokens"
  | .anthropic => "output_tokens"
  | .gemini => "candidatesTokenCount"
  | .ollama => "eval_count"

/-- The name of the total, in formats that may report one. -/
def totalName? : ApiFormat → Option String
  | .openAi => some "total_tokens"
  | .gemini => some "totalTokenCount"
  | .anthropic | .ollama => none

/-- Whether a report has the counts `a` and `b`, and no total. -/
structure Reports (f : ApiFormat) (report : Json) (a b : Nat) : Prop where
  input : report.member (inputName f) = .nat a
  output : report.member (outputName f) = .nat b
  noTotal : ∀ name ∈ totalName? f, (report.member name).int64? = none

/-- The counts of a report. -/
def usageIn (f : ApiFormat) (report : Json) : Usage :=
  .ofCounts (Usage.count? report (inputName f)) (Usage.count? report (outputName f))
    ((totalName? f).bind (Usage.count? report))

theorem Reports.totals {f : ApiFormat} {report : Json} {a b : Nat} (h : Reports f report a b) :
    (usageIn f report).Totals a b := by
  refine Usage.totals_of_eq fun ha hb => ?_
  have htotal : (totalName? f).bind (Usage.count? report) = none := by
    cases hname : totalName? f with
    | none => rfl
    | some name => rw [Option.bind_some, Usage.count?_eq, h.noTotal name hname, Option.map_none]
  rw [usageIn, Usage.count?_of_member h.input ha, Usage.count?_of_member h.output hb, htotal]

theorem Reports.isObject {f : ApiFormat} {report : Json} {a b : Nat} (h : Reports f report a b) :
    report.isObject = true := by
  have hinput : report.member (inputName f) ≠ .null := by
    rw [h.input]
    exact Json.noConfusion
  exact Json.isObject_of_member_ne_null hinput

theorem OpenAi.usage_eq_usageIn {v : Json} (h : (v.member "usage").isObject = true) :
    OpenAi.usage v = usageIn .openAi (v.member "usage") := by
  rw [OpenAi.usage, Json.filter_isObject h]
  rfl

/-- The counts of a whole reply are those of its report. -/
theorem usage_of_answerOf {f : ApiFormat} {reply : Json} {c : Completion}
    (h : answerOf f reply = .ok c) (hobject : (reportOf f reply).isObject = true) :
    c.usage = usageIn f (reportOf f reply) := by
  cases f with
  | openAi =>
    rw [answerOf, OpenAi.completion] at h
    split at h
    · cases h
    · obtain ⟨m, -, hc⟩ := bind_eq_ok_iff.mp h
      cases hc
      exact OpenAi.usage_eq_usageIn hobject
  | anthropic =>
    obtain ⟨m, -, hc⟩ := bind_eq_ok_iff.mp h
    cases hc
    rfl
  | gemini =>
    obtain ⟨m, -, hc⟩ := bind_eq_ok_iff.mp h
    cases hc
    rfl
  | ollama =>
    rw [answerOf, Ollama.completion] at h
    split at h
    · cases h
    · split at h
      · cases h
      · cases h
        rfl

/-! ### Reports in streams -/

namespace Assembly

variable {σ : Type} {a : Assembly σ} {s : σ} {c : Completion}

theorem done_mem_finish : .ok (.done c) ∈ [(a.finish s).map Chunk.done] ↔ a.finish s = .ok c := by
  rw [List.mem_singleton, eq_comm, map_eq_ok_iff]
  simp

/-- The answer of a stream is that of the state behind the line that ends it. -/
theorem exists_feed_of_done {line : String} {rest : List (Except Failure String)}
    (h : .ok (.done c) ∈ a.chunksFrom s (.ok line :: rest)) :
    ∃ delta? s', a.feed s line = .ok (delta?, s') ∧
      (a.isDone s' = true ∧ a.finish s' = .ok c ∨
        a.isDone s' = false ∧ .ok (.done c) ∈ a.chunksFrom s' rest) := by
  cases hfeed : a.feed s line with
  | error e => simp [chunksFrom_cons_of_error hfeed] at h
  | ok r =>
    obtain ⟨delta?, s'⟩ := r
    have hdelta : .ok (.done c) ∉ deltaItems delta?.toList := by simp [deltaItems]
    rw [chunksFrom_cons hfeed, List.mem_append, or_iff_right hdelta] at h
    refine ⟨delta?, s', rfl, ?_⟩
    cases hdone : a.isDone s' with
    | true =>
      rw [hdone, if_pos rfl] at h
      exact .inl ⟨rfl, done_mem_finish.mp h⟩
    | false =>
      rw [hdone, if_neg Bool.false_ne_true] at h
      exact .inr ⟨rfl, h⟩

end Assembly

namespace OpenAi

/-- The reports that the lines of a body hold, up to the end mark. -/
def reports : List (Except Failure String) → List Json
  | [] | .error _ :: _ => []
  | .ok line :: rest =>
    match chunk? line with
    | some chunk =>
      (if (chunk.member "usage").isObject then [chunk.member "usage"] else []) ++ reports rest
    | none => if dataOf? line = some "[DONE]" then [] else reports rest

theorem usage_takeChunk (p : Partial) (chunk : Json) : (p.takeChunk chunk).2.usage =
    if (chunk.member "usage").isObject then usageIn .openAi (chunk.member "usage")
    else p.usage := by
  have hdelta (p : Partial) (delta : Json) : (p.takeDelta delta).2.usage = p.usage := by
    unfold Partial.takeDelta
    dsimp only
    split <;> rfl
  unfold Partial.takeChunk
  dsimp only
  rw [hdelta]
  cases hobject : (chunk.member "usage").isObject with
  | true =>
    rw [← usage_eq_usageIn hobject]
    cases (((chunk.member "choices").nth 0).member "finish_reason").str? <;> rfl
  | false => cases (((chunk.member "choices").nth 0).member "finish_reason").str? <;> rfl

theorem usage_of_finish {p : Partial} {c : Completion} (h : p.finish = .ok c) :
    c.usage = p.usage := by
  unfold Partial.finish at h
  split at h
  · cases h
  · cases h
    rfl

/-- The last element is that of the others, or else the first. -/
theorem getD_getLast?_cons {α β : Type} (f : α → β) (x : α) (xs : List α) (b : β) :
    ((x :: xs).getLast?.map f).getD b = (xs.getLast?.map f).getD (f x) := by
  rw [List.getLast?_cons]
  cases xs.getLast? <;> rfl

/-- The last report counts. -/
theorem usage_of_done {p : Partial} {lines : List (Except Failure String)} {c : Completion}
    (hopen : p.isDone = false) (h : .ok (.done c) ∈ assembly.chunksFrom p lines) :
    c.usage = ((reports lines).getLast?.map (usageIn .openAi)).getD p.usage := by
  -- What has been reported so far is kept in the state, so the lines are taken off in front,
  -- whatever the state is.
  induction lines generalizing p with
  | nil => exact usage_of_finish (Assembly.done_mem_finish.mp h)
  | cons x lines ih =>
    cases x with
    | error e => simp [Assembly.chunksFrom] at h
    | ok line =>
      obtain ⟨delta?, p', hfeed, hend⟩ := Assembly.exists_feed_of_done h
      rw [assembly_feed] at hfeed
      rcases Partial.feed_cases hfeed with ⟨hdata, rfl⟩ | ⟨hdata, rfl⟩ | ⟨data, chunk, hdata, hne,
        hparse, rfl⟩
      · obtain ⟨hdone, -⟩ | ⟨-, hrest⟩ := hend
        · exact absurd hdone (Bool.eq_false_iff.mp hopen)
        · simp only [ih hopen hrest, reports, chunk?, hdata, Option.bind_none,
            reduceCtorEq, if_false]
      · obtain ⟨-, hfinish⟩ | ⟨hdone, -⟩ := hend
        · -- the end mark is no JSON
          have hreports : reports (.ok line :: lines) = [] := by
            simp only [reports, chunk?, hdata, Option.bind_some]
            rfl
          rw [hreports]
          exact usage_of_finish (p := { p with isDone := true }) hfinish
        · cases hdone
      · have hopen' : (p.takeChunk chunk).2.isDone = false :=
          (Partial.takeChunk_eq p chunk).1.trans hopen
        have hchunk : chunk? line = some chunk := by
          rw [chunk?, hdata, Option.bind_some, hparse]
          rfl
        obtain ⟨hdone, -⟩ | ⟨-, hrest⟩ := hend
        · exact absurd hdone (Bool.eq_false_iff.mp hopen')
        · simp only [ih hopen' hrest, usage_takeChunk, reports, hchunk]
          cases (chunk.member "usage").isObject with
          | true => exact (getD_getLast?_cons _ _ _ _).symm
          | false => rfl

end OpenAi

namespace Ollama

/-- The chunk on the line that ends a stream, if there is one. -/
def lastChunk? : List (Except Failure String) → Option Json
  | [] | .error _ :: _ => none
  | .ok line :: rest =>
    match Json.parse (Text.trim line) with
    | .ok chunk => if (chunk.member "done").bool? = some true then some chunk else lastChunk? rest
    | .error _ => lastChunk? rest

theorem usage_takeChunk (p : Partial) {chunk : Json} (h : (chunk.member "done").bool? = some true) :
    (p.takeChunk chunk).2.usage = usageIn .ollama chunk := by
  unfold Partial.takeChunk
  dsimp only
  rw [h, Option.getD_some, if_pos rfl]
  rfl

theorem usage_of_finish {p : Partial} {c : Completion} (h : p.finish = .ok c) :
    c.usage = p.usage := by
  unfold Partial.finish at h
  split at h
  · split at h
    · cases h
    · cases h
      rfl
  · cases h

/-- The chunk that ends the stream counts. -/
theorem usage_of_done {p : Partial} {lines : List (Except Failure String)} {c : Completion}
    (hopen : p.isDone = false) (h : .ok (.done c) ∈ assembly.chunksFrom p lines) :
    ∃ chunk, lastChunk? lines = some chunk ∧ c.usage = usageIn .ollama chunk := by
  induction lines generalizing p with
  | nil =>
    have hfinish : p.finish = .ok c := Assembly.done_mem_finish.mp h
    rw [finish_eq_error hopen] at hfinish
    cases hfinish
  | cons x lines ih =>
    cases x with
    | error e => simp [Assembly.chunksFrom] at h
    | ok line =>
      obtain ⟨delta?, p', hfeed, hend⟩ := Assembly.exists_feed_of_done h
      rw [assembly_feed] at hfeed
      rcases Partial.feed_cases hfeed with ⟨hblank, rfl⟩ | ⟨chunk, hchunk, rfl⟩
      · obtain ⟨hdone, -⟩ | ⟨-, hrest⟩ := hend
        · exact absurd hdone (Bool.eq_false_iff.mp hopen)
        · -- a blank line is no JSON
          have hskip : lastChunk? (.ok line :: lines) = lastChunk? lines := by
            rw [lastChunk?, hblank]
            rfl
          rw [hskip]
          exact ih hopen hrest
      · have hcloses : (p.takeChunk chunk).2.isDone = true ↔
            (chunk.member "done").bool? = some true := by
          rw [Partial.takeChunk_isDone, hopen]
          simp
        obtain ⟨hdone, hfinish⟩ | ⟨hdone, hrest⟩ := hend
        · have hlast := hcloses.mp hdone
          refine ⟨chunk, by simp only [lastChunk?, hchunk, hlast, if_true], ?_⟩
          rw [usage_of_finish hfinish, usage_takeChunk p hlast]
        · have hlast : ¬ (chunk.member "done").bool? = some true := fun hlast =>
            absurd (hcloses.mpr hlast) (Bool.eq_false_iff.mp hdone)
          simp only [lastChunk?, hchunk, hlast, if_false]
          exact ih hdone hrest

end Ollama

namespace Anthropic

/-- What an event says of the tokens of the history. -/
def noteInput (input? : Option Int32) (e : String × Json) : Option Int32 :=
  if e.1 = "message_start" then Usage.count? ((e.2.member "message").member "usage") "input_tokens"
    else input?

/-- What an event says of the tokens of the answer. -/
def noteOutput (output? : Option Int32) (e : String × Json) : Option Int32 :=
  if e.1 = "message_delta" then (Usage.count? (e.2.member "usage") "output_tokens").or output?
    else output?

namespace Partial

variable {p p' : Partial} {type : String} {event : Json} {delta? : Option String}

theorem tokens_takeText {index : Nat} {text : String}
    (h : p.takeText index text = .ok (delta?, p')) :
    p'.inputTokens? = p.inputTokens? ∧ p'.outputTokens? = p.outputTokens? := by
  unfold takeText at h
  dsimp only at h
  split at h
  · cases h
    exact ⟨rfl, rfl⟩
  · cases h

theorem tokens_takeJson {index : Nat} {piece : String}
    (h : p.takeJson index piece = .ok (delta?, p')) :
    p'.inputTokens? = p.inputTokens? ∧ p'.outputTokens? = p.outputTokens? := by
  unfold takeJson at h
  split at h
  · cases h
    exact ⟨rfl, rfl⟩
  · cases h

theorem tokens_takeEvent (h : p.takeEvent type event = .ok (delta?, p')) :
    p'.inputTokens? = noteInput p.inputTokens? (type, event) ∧
      p'.outputTokens? = noteOutput p.outputTokens? (type, event) := by
  unfold takeEvent at h
  split at h
  · cases h
    exact ⟨rfl, rfl⟩
  · cases h
    exact ⟨rfl, rfl⟩
  · dsimp only at h
    split at h
    · exact tokens_takeText h
    · exact tokens_takeJson h
    · cases h
      exact ⟨rfl, rfl⟩
  · cases h
    exact ⟨rfl, rfl⟩
  · cases h
    exact ⟨rfl, rfl⟩
  · cases h
  · rename_i hstart _ _ hdelta _ _
    cases h
    rw [noteInput, noteOutput, if_neg hstart, if_neg hdelta]
    exact ⟨rfl, rfl⟩

end Partial

theorem usage_of_finish {p : Partial} {c : Completion} (h : p.finish = .ok c) :
    c.usage = .ofCounts p.inputTokens? p.outputTokens? none := by
  unfold Partial.finish at h
  split at h
  · cases h
    rfl
  · cases h

/-- The counts of an answer are what its events say, one after the other. -/
theorem usage_of_done {p : Partial} {lines : List (Except Failure String)} {c : Completion}
    (hopen : p.isDone = false) (h : .ok (.done c) ∈ assembly.chunksFrom p lines) :
    c.usage = .ofCounts ((eventsOf p.announced? lines).foldl noteInput p.inputTokens?)
      ((eventsOf p.announced? lines).foldl noteOutput p.outputTokens?) none := by
  -- An event may be announced on the line before, so the events of the rest depend on the state as
  -- well.
  induction lines generalizing p with
  | nil =>
    have hfinish : p.finish = .ok c := Assembly.done_mem_finish.mp h
    rw [finish_eq_error hopen] at hfinish
    cases hfinish
  | cons x lines ih =>
    cases x with
    | error e => simp [Assembly.chunksFrom] at h
    | ok line =>
      obtain ⟨delta?, p', hfeed, hend⟩ := Assembly.exists_feed_of_done h
      rw [assembly_feed] at hfeed
      rcases Partial.feed_cases hfeed with ⟨type, hline, rfl⟩ | ⟨hline, hdata, rfl⟩ |
        ⟨data, event, hdata, hparse, htake⟩
      · obtain ⟨hdone, -⟩ | ⟨hopen', hrest⟩ := hend
        · exact absurd hdone (Bool.eq_false_iff.mp hopen)
        · rw [eventsOf_announce lines hline]
          exact ih (p := { p with announced? := some type }) hopen hrest
      · obtain ⟨hdone, -⟩ | ⟨-, hrest⟩ := hend
        · exact absurd hdone (Bool.eq_false_iff.mp hopen)
        · rw [eventsOf_silent lines hline hdata]
          exact ih hopen hrest
      · obtain ⟨hinput, houtput⟩ := Partial.tokens_takeEvent htake
        obtain ⟨hstop, hannounced⟩ := Partial.takeEvent_eq htake
        have hstop' : p'.isDone = true ↔
            ((event.member "type").str?.or p.announced?).getD "" = "message_stop" := by
          rw [hstop, hopen]
          simp
        rw [eventsOf_event lines hdata hparse rfl, List.foldl_cons, List.foldl_cons,
          ← hinput, ← houtput]
        obtain ⟨hdone, hfinish⟩ | ⟨hopen', hrest⟩ := hend
        · rw [if_pos (hstop'.mp hdone)]
          exact usage_of_finish hfinish
        · have hgoesOn : ¬ ((event.member "type").str?.or p.announced?).getD "" = "message_stop" :=
            fun htype => absurd (hstop'.mpr htype) (Bool.eq_false_iff.mp hopen')
          have hlines := ih hopen' hrest
          rw [hannounced] at hlines
          rw [if_neg hgoesOn]
          exact hlines

/-- Whether events report the counts `a` and `b`: the first on the last event that starts a message,
and the second on the last event about the message that counts anything. -/
structure Reported (events : List (String × Json)) (a b : Nat) : Prop where
  input : ∃ before start after, events = before ++ ("message_start", start) :: after ∧
    ((start.member "message").member "usage").member "input_tokens" = .nat a ∧
    ∀ e ∈ after, e.1 ≠ "message_start"
  output : ∃ before delta after, events = before ++ ("message_delta", delta) :: after ∧
    (delta.member "usage").member "output_tokens" = .nat b ∧
    ∀ e ∈ after, e.1 = "message_delta" → ((e.2.member "usage").member "output_tokens").int? = none

theorem foldl_eq_self {α β : Type} {f : β → α → β} {xs : List α}
    (h : ∀ x ∈ xs, ∀ b, f b x = b) (b : β) :
    xs.foldl f b = b := by
  induction xs generalizing b with
  | nil => rfl
  | cons x xs ih =>
    obtain ⟨hx, hxs⟩ := List.forall_mem_cons.mp h
    rw [List.foldl_cons, hx, ih hxs]

theorem Reported.totals {events : List (String × Json)} {a b : Nat} (h : Reported events a b)
    (input? output? : Option Int32) :
    (Usage.ofCounts (events.foldl noteInput input?)
      (events.foldl noteOutput output?) none).Totals a b := by
  refine Usage.totals_of_eq fun ha hb => ?_
  have hinput : events.foldl noteInput input? = some (.ofInt a) := by
    obtain ⟨before, start, after, rfl, hstart, hafter⟩ := h.input
    rw [List.foldl_append, List.foldl_cons, noteInput, if_pos rfl, Usage.count?_of_member hstart ha]
    exact foldl_eq_self (fun e he input? => if_neg (hafter e he)) _
  have houtput : events.foldl noteOutput output? = some (.ofInt b) := by
    obtain ⟨before, delta, after, rfl, hdelta, hafter⟩ := h.output
    rw [List.foldl_append, List.foldl_cons, noteOutput, if_pos rfl,
      Usage.count?_of_member hdelta hb, Option.some_or]
    refine foldl_eq_self (fun e he output? => ?_) _
    rw [noteOutput]
    split
    · rename_i htype
      rw [Usage.count?_eq, Json.int64?, hafter e he htype]
      rfl
    · rfl
  rw [hinput, houtput]

end Anthropic

end Parley.Wire
