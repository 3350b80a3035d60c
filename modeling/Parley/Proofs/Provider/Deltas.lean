import Parley.Proofs.Wire.Deltas.Anthropic
import Parley.Provider.Remote

/-!
# Models whose streams add up

`streamAddsUp_remote`: the pieces of text of a stream make up the text of its message, whatever
endpoint the stream comes from.  Only in the Anthropic format does that depend on the reply, whose
pieces have to come in order.  A model without a stream of its own shows the whole text
(`streamAddsUp_streamOf`).
-/

namespace Parley.Provider

open Chat (Message ToolSchema)
open Net (Network Reply Request)
open Wire (AddsUp Assembly Chunk Completion Failure Options TransportFailure)
open Wire.Anthropic (Orderly eventsOf piecesOf)

variable {σ : Type}

/-- Whether a stream, if there is one, adds up. -/
def StreamAddsUp (stream : Except Failure (List (Except Failure Chunk))) : Prop :=
  ∀ items, stream = .ok items → AddsUp items

/-- A model without a stream of its own shows the whole text. -/
theorem streamAddsUp_streamOf
    (complete : List Message → List ToolSchema → Options → σ → Except Failure Completion × σ)
    (history : List Message) (tools : List ToolSchema) (options : Options) (s : σ) :
    StreamAddsUp (Model.streamOf complete history tools options s).1 := by
  intro items (hitems : (complete history tools options s).1.map Model.wholeStream = .ok items)
  cases hcomplete : (complete history tools options s).1 with
  | error e =>
    rw [hcomplete] at hitems
    cases hitems
  | ok c =>
    rw [hcomplete] at hitems
    cases hitems
    exact Wire.addsUp_wholeStream c

/-- A call gets a reply and reads it. -/
theorem call_eq_bind {α : Type} (post : Json → Except TransportFailure Request)
    (payload : Except Failure Json) (read : Reply → Except Failure α) (n : Network) :
    (call post payload read n).1 = (call post payload .ok n).1.bind read := by
  cases payload with
  | error e => rfl
  | ok payload =>
    simp only [call]
    cases (exchange (post payload) n).1 <;> rfl

/-- What a call gives is read from the reply to what is posted. -/
theorem call_eq_ok {α : Type} {post : Json → Except TransportFailure Request}
    {payload : Except Failure Json} {read : Reply → Except Failure α} {n : Network} {x : α}
    (h : (call post payload read n).1 = .ok x) :
    ∃ v sent reply n', payload = .ok v ∧ post v = .ok sent ∧ n.send sent = (.ok reply, n') ∧
      read reply = .ok x := by
  unfold call at h
  cases payload with
  | error e => cases h
  | ok v =>
    simp only [exchange] at h
    cases hpost : post v with
    | error e =>
      rw [hpost] at h
      cases h
    | ok sent =>
      rw [hpost] at h
      rcases hsend : n.send sent with ⟨e | reply, n'⟩
      · simp only [hsend] at h
        cases h
      · simp only [hsend] at h
        split at h
        · exact ⟨v, sent, reply, n', rfl, hpost, hsend, h⟩
        · cases h

/-- A call whose reply is read line by line adds up when the reply does. -/
theorem streamAddsUp_call {a : Assembly σ} {post : Json → Except TransportFailure Request}
    {payload : Except Failure Json} {n : Network}
    (h : ∀ v sent reply n', payload = .ok v → post v = .ok sent → n.send sent = (.ok reply, n') →
      AddsUp (a.chunks reply.body)) : StreamAddsUp (call post payload (streaming a) n).1 := by
  intro items hitems
  obtain ⟨v, sent, reply, n', hpayload, hpost, hsend, hread⟩ := call_eq_ok hitems
  obtain rfl : a.chunks reply.body = items := Except.ok.inj hread
  exact h v sent reply n' hpayload hpost hsend

/-- The streams of an endpoint add up, if in the Anthropic format the pieces of the reply are in
order. -/
theorem streamAddsUp_remote (e : Endpoint) (format : ApiFormat) (history : List Message)
    (tools : List ToolSchema) (options : Options) (n : Network)
    (horderly : format = .anthropic → ∀ sent reply n',
      e.anthropicPost (Wire.Anthropic.chatPayload e.model e.maxTokens? history tools options true) =
        .ok sent →
      n.send sent = (.ok reply, n') → Orderly (piecesOf (eventsOf none reply.body.lines))) :
    StreamAddsUp ((e.remote format).stream history tools options n).1 := by
  cases format with
  | openAi =>
    simp only [Endpoint.remote, Endpoint.openAi]
    exact streamAddsUp_call fun _ _ _ _ _ _ _ => Wire.OpenAi.addsUp _
  | anthropic =>
    simp only [Endpoint.remote, Endpoint.anthropic]
    apply streamAddsUp_call
    rintro v sent reply n' ⟨rfl⟩ hpost hsend
    exact Wire.Anthropic.addsUp (horderly rfl sent reply n' hpost hsend)
  | gemini =>
    simp only [Endpoint.remote, Endpoint.gemini]
    exact streamAddsUp_streamOf e.geminiComplete history tools options n
  | ollama =>
    simp only [Endpoint.remote, Endpoint.ollama]
    exact streamAddsUp_call fun _ _ _ _ _ _ _ => Wire.Ollama.addsUp _

end Parley.Provider
