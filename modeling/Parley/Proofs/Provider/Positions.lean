import Mathlib.Control.Monad.Basic
import Parley.Proofs.Provider.Deltas
import Parley.Proofs.Wire.Positions

/-!
# Vectors and scores in the order that was asked for

`results_follow_input`: whatever an endpoint receives in reply to texts or documents, the vectors
stand at the numbers of their entries and the scores at those of the last entries for the documents.
In which order the entries were sent does not show, and neither does an entry that is for none of
the documents.

What an endpoint receives is a value that has been read (`ranged_of_received`), so that its integers
have 64 bits.
-/

namespace Parley.Provider

open Net (Network Reply Request)
open Wire (Failure TransportFailure)
open Wire.OpenAi (Numbered embedPayload lastFor rerankPayload scoreOf vectorOf)

/-! ### What is received -/

/-- Reading a reply is reading the value that it carries. -/
theorem call_reading {α : Type} (post : Json → Except TransportFailure Request)
    (payload : Except Failure Json) (read : Json → Except Failure α) (n : Network) :
    (call post payload (reading read) n).1 = (call post payload (reading .ok) n).1.bind read := by
  rw [call_eq_bind post payload (reading read), call_eq_bind post payload (reading .ok)]
  cases (call post payload .ok n).1 with
  | error e => rfl
  | ok reply =>
    simp only [Except.bind, reading]
    cases reply.body.json <;> rfl

/-- The value that an endpoint receives in reply to a payload. -/
def Endpoint.received (e : Endpoint) (path : String) (payload : Json) (n : Network) :
    Except Failure Json :=
  (call (e.openAiPost path) (.ok payload) (reading .ok) n).1

variable {e : Endpoint} {path : String} {payload v : Json} {n : Network}

theorem Endpoint.ranged_of_received (h : e.received path payload n = .ok v) : v.Ranged := by
  obtain ⟨_, sent, reply, n', -, -, -, hread⟩ := call_eq_ok h
  unfold reading at hread
  cases hjson : reply.body.json with
  | error failure => rw [hjson] at hread; cases hread
  | ok value =>
    rw [hjson] at hread
    cases hread
    unfold Wire.Body.json at hjson
    split at hjson
    · cases hjson
    · split at hjson
      · cases hjson
      · next text _ =>
        cases hparse : Json.parse text with
        | error failure => rw [hparse] at hjson; cases hjson
        | ok value =>
          rw [hparse] at hjson
          cases hjson
          exact Json.ranged_of_parse hparse

theorem Endpoint.embed_eq (e : Endpoint) (texts : List String) (n : Network) :
    (e.openAi.embed texts n).1 =
    (e.received "embeddings" (embedPayload e.model texts) n).bind Wire.OpenAi.embeddings := by
  rw [received, ← call_reading]
  rfl

theorem Endpoint.rerank_eq (e : Endpoint) (query : String) (documents : List String) (n : Network) :
    (e.openAi.rerank query documents n).1 =
      (e.received "rerank" (rerankPayload e.model query documents) n).bind
      (Wire.OpenAi.scores · documents) := by
  rw [received, ← call_reading]
  rfl

/-! ### Results follow the input -/

/-- **Vectors and scores follow the input.**  The vector at a position is that of the entry with
this number, and the score at a position is that of the last entry with this number, or zero.  The
order of the entries does not show where their numbers differ, and neither does an entry with a
number beyond the documents. -/
theorem results_follow_input (e : Endpoint) :
    (∀ texts n v entries, e.received "embeddings" (embedPayload e.model texts) n = .ok v →
      v.member "data" = .arr entries → Numbered entries →
      (∃ vectors, (e.openAi.embed texts n).1 = .ok vectors ∧ vectors.length = entries.length ∧
        ∀ entry ∈ entries, ∀ i, entry.member "index" = .nat i →
          vectors[i]? = some (vectorOf entry)) ∧
      ∀ n' v' entries', e.received "embeddings" (embedPayload e.model texts) n' = .ok v' →
        v'.member "data" = .arr entries' → entries'.Perm entries →
        (e.openAi.embed texts n').1 = (e.openAi.embed texts n).1) ∧
    ∀ query documents n v entries,
      e.received "rerank" (rerankPayload e.model query documents) n = .ok v →
      v.member "results" = .arr entries →
      ((∃ entry ∈ entries, ∀ i : Nat, entry.member "index" ≠ .nat i) →
        (e.openAi.rerank query documents n).1 = .error (.missingField "index")) ∧
      ((∀ entry ∈ entries, ∃ i : Nat, entry.member "index" = .nat i) →
        (∃ scores, (e.openAi.rerank query documents n).1 = .ok scores ∧
          scores.length = documents.length ∧
          ∀ i < documents.length,
            scores[i]? = some (((lastFor entries i).map scoreOf).getD .zero)) ∧
        ∀ n' v' entries', e.received "rerank" (rerankPayload e.model query documents) n' = .ok v' →
          v'.member "results" = .arr entries' →
          (∃ before entry after k, entries = before ++ entry :: after ∧ entries' = before ++ after ∧
            entry.member "index" = .nat k ∧ documents.length ≤ k) ∨
          (entries'.Perm entries ∧ (entries.map (·.member "index")).Nodup) →
          (e.openAi.rerank query documents n').1 = (e.openAi.rerank query documents n).1) := by
  constructor
  · intro texts n v entries hreceived hdata hnumbered
    have hranged := Endpoint.ranged_of_received hreceived
    constructor
    · obtain ⟨vectors, hvectors, hplaced⟩ := Wire.OpenAi.embeddings_eq_ok hranged hdata hnumbered
      refine ⟨vectors, ?_, hplaced⟩
      rw [Endpoint.embed_eq, hreceived]
      exact hvectors
    · intro n' v' entries' hreceived' hdata' hperm
      have hranged' := Endpoint.ranged_of_received hreceived'
      rw [Endpoint.embed_eq, Endpoint.embed_eq, hreceived, hreceived']
      exact Wire.OpenAi.embeddings_congr hranged hranged' hdata hdata' hnumbered hperm
  · intro query documents n v entries hreceived hresults
    have hranged := Endpoint.ranged_of_received hreceived
    refine ⟨fun hmissing => ?_, fun hindex => ⟨?_, ?_⟩⟩
    · rw [Endpoint.rerank_eq, hreceived]
      exact Wire.OpenAi.scores_eq_error hresults hmissing documents
    · obtain ⟨scores, hscores, hplaced⟩ :=
        Wire.OpenAi.scores_eq_ok hranged hresults hindex documents
      refine ⟨scores, ?_, hplaced⟩
      rw [Endpoint.rerank_eq, hreceived]
      exact hscores
    · intro n' v' entries' hreceived' hresults' hsame
      have hranged' := Endpoint.ranged_of_received hreceived'
      rw [Endpoint.rerank_eq, Endpoint.rerank_eq, hreceived, hreceived']
      have hmem : ∀ entry ∈ entries', entry ∈ entries := by
        obtain ⟨before, dropped, after, k, rfl, rfl, -, -⟩ | ⟨hperm, -⟩ := hsame
        · intro entry hentry
          exact (List.sublist_append_right [dropped] after |>.append_left before).mem hentry
        · exact fun entry => hperm.mem_iff.mp
      have hlast : ∀ i < documents.length, lastFor entries' i = lastFor entries i := by
        obtain ⟨before, entry, after, k, rfl, rfl, hk, hbeyond⟩ | ⟨hperm, hdistinct⟩ := hsame
        · intro i hi
          have hne : i ≠ k := by omega
          exact Wire.OpenAi.lastFor_of_out_of_range hk hne
        · exact fun i _ => Wire.OpenAi.lastFor_of_perm hperm hdistinct i
      exact Wire.OpenAi.scores_congr hranged hranged' hresults hresults' hindex
        (fun entry hentry => hindex entry (hmem entry hentry)) hlast

/-! ### A small endpoint -/

/-- An endpoint. -/
def smallEndpoint : Endpoint := { id := "small", host := "http://h", model := "m" }

/-- The network in which the next request is answered by a value. -/
def answering (v : Json) : Network :=
  { outcomes := [.reply ⟨200, [], .ofBytes (Text.Utf8.encode v.print)⟩] }

/-- A reply with vectors of one number each. -/
def vectorReply (vectors : List (Nat × Nat)) : Json :=
  .object [("data",
    .arr (vectors.map fun (i, x) => .object [("index", .nat i), ("embedding", .arr [.nat x])]))]

/-- A reply with scores. -/
def scoreReply (scores : List (Nat × Nat)) : Json :=
  .object [("results",
    .arr (scores.map fun (i, x) => .object [("index", .nat i), ("relevance_score", .nat x)]))]

/-- Two vectors that are sent in the wrong order, and scores of which one is for no document and one
comes too late to count. -/
theorem results_follow_input_small :
    let embed (vectors : List (Nat × Nat)) :=
      (smallEndpoint.openAi.embed ["a", "b"] (answering (vectorReply vectors))).1
    let rerank (scores : List (Nat × Nat)) :=
      (smallEndpoint.openAi.rerank "q" ["a", "b"] (answering (scoreReply scores))).1
    (embed [(1, 20), (0, 10)] = .ok [[.ofNumber (.int 10)], [.ofNumber (.int 20)]] ∧
      embed [(0, 10), (1, 20)] = embed [(1, 20), (0, 10)]) ∧
    rerank [(1, 3), (7, 9), (1, 5)] = .ok [.zero, .ofNumber (.int 5)] ∧
      rerank [(1, 3), (1, 5)] = rerank [(1, 3), (7, 9), (1, 5)] := by
  intro embed rerank
  obtain ⟨hembed, hrerank⟩ := results_follow_input smallEndpoint
  have hvectors : ∀ vectors ∈ [[(1, 20), (0, 10)], [(0, 10), (1, 20)]],
      smallEndpoint.received "embeddings" (embedPayload smallEndpoint.model ["a", "b"])
        (answering (vectorReply vectors)) = .ok (vectorReply vectors) := by decide +kernel
  have hscores : ∀ scores ∈ [[(1, 3), (7, 9), (1, 5)], [(1, 3), (1, 5)]],
      smallEndpoint.received "rerank" (rerankPayload smallEndpoint.model "q" ["a", "b"])
        (answering (scoreReply scores)) = .ok (scoreReply scores) := by decide +kernel
  have hsecond {α : Type} {a b : α} : b ∈ [a, b] := List.mem_cons_of_mem _ List.mem_cons_self
  constructor
  · have hnumbered : Numbered [.object [("index", .nat 1), ("embedding", .arr [.nat 20])],
        .object [("index", .nat 0), ("embedding", .arr [.nat 10])]] := List.Perm.swap _ _ []
    obtain ⟨⟨vs, hvs, hlength, hplaced⟩, hsame⟩ :=
      hembed _ _ _ _ (hvectors _ List.mem_cons_self) rfl hnumbered
    have hswapped := hsame _ _ _ (hvectors _ hsecond) rfl (List.Perm.swap _ _ [])
    obtain ⟨a, b, rfl⟩ := List.length_eq_two.mp hlength
    obtain rfl := Option.some.inj (hplaced _ hsecond 0 rfl)
    obtain rfl := Option.some.inj (hplaced _ List.mem_cons_self 1 rfl)
    exact ⟨hvs, hswapped⟩
  · have hindex : ∀ entry ∈ [(1, 3), (7, 9), (1, 5)].map fun (i, x) =>
        Json.object [("index", .nat i), ("relevance_score", .nat x)],
            ∃ i : Nat, entry.member "index" = .nat i :=
      List.forall_mem_map.mpr fun e _ => ⟨e.1, rfl⟩
    obtain ⟨-, hnumbers⟩ := hrerank _ _ _ _ _ (hscores _ List.mem_cons_self) rfl
    obtain ⟨⟨ss, hss, hcount, hscored⟩, hdropped⟩ := hnumbers hindex
    have hbeyond :=
      hdropped _ _ _ (hscores _ hsecond) rfl (Or.inl ⟨[_], _, [_], 7, rfl, rfl, rfl, by decide⟩)
    obtain ⟨a, b, rfl⟩ := List.length_eq_two.mp hcount
    obtain rfl := Option.some.inj (hscored 0 (by decide))
    obtain rfl := Option.some.inj (hscored 1 (by decide))
    exact ⟨hss, hbeyond⟩

end Parley.Provider
