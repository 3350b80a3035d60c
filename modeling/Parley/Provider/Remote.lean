import Parley.Net.Exchange
import Parley.Provider.Endpoint
import Parley.Provider.Model
import Parley.Wire.Anthropic.Request
import Parley.Wire.Anthropic.Stream
import Parley.Wire.Gemini.Reply
import Parley.Wire.Gemini.Request
import Parley.Wire.Ollama.Request
import Parley.Wire.Ollama.Stream
import Parley.Wire.OpenAi.Request
import Parley.Wire.OpenAi.Stream

/-!
# Models behind a network

`Endpoint.model` is the model that an endpoint offers in a wire format: every call posts a payload
in that format and reads the reply.  A reply with an error status is a failure (`failureOf`),
whatever the format.
-/

namespace Parley.Provider

open Chat (Message ToolSchema)
open Floating (Single)
open Net (Network Reply Request)
open Wire (Assembly Chunk Completion Failure Options)

/-! ### Calls -/

/-- The failure that a reply with an error status stands for.  A body that breaks off counts as
empty. -/
def failureOf (reply : Reply) : Failure :=
  let body := reply.body.text.toOption.getD ""
  let reported? := match Json.parse body with
    | .ok v => (v.get? "error").bind Wire.contextFailure?
    | .error _ => none
  reported?.getD (.http reply.status body)

/-- Post a payload and get the reply, whose status reports success. -/
def exchange (request : Except Wire.TransportFailure Request) (n : Network) :
    Except Failure Reply × Network :=
  match request with
  | .error e => (.error (.transport e), n)
  | .ok request =>
    match n.send request with
    | (.error e, n) => (.error (.transport e), n)
    | (.ok reply, n) => (if reply.isSuccess then .ok reply else .error (failureOf reply), n)

/-- Post a payload, unless there is none, and read the reply. -/
def call {α : Type} (post : Json → Except Wire.TransportFailure Request)
    (payload : Except Failure Json) (read : Reply → Except Failure α) (n : Network) :
    Except Failure α × Network :=
  match payload with
  | .error e => (.error e, n)
  | .ok payload =>
    let (reply, n) := exchange (post payload) n
    (reply.bind read, n)

/-- Read a reply whose body is JSON. -/
def reading {α : Type} (read : Json → Except Failure α) (reply : Reply) : Except Failure α :=
  match reply.body.json with
  | .error e => .error (.transport e)
  | .ok v => read v

/-- Read a reply line by line. -/
def streaming {σ : Type} (a : Assembly σ) (reply : Reply) :
    Except Failure (List (Except Failure Chunk)) :=
  .ok (a.chunks reply.body)

namespace Endpoint

/-! ### Requests -/

/-- The header that carries the key as a token. -/
def bearer (e : Endpoint) : List (String × String) :=
  (e.apiKey?.map fun key => ("authorization", "Bearer " ++ key)).toList

/-- A request in the OpenAI format. -/
def openAiPost (e : Endpoint) (path : String) (payload : Json) :
    Except Wire.TransportFailure Request :=
  Request.post (e.openAiUrl path) [] (e.bearer ++ e.headers) payload

/-- The version of the Anthropic format. -/
def anthropicVersion : String := "2023-06-01"

/-- A request in the Anthropic format. -/
def anthropicPost (e : Endpoint) (payload : Json) : Except Wire.TransportFailure Request :=
  Request.post (e.url "v1/messages") []
    (("anthropic-version", anthropicVersion) ::
      (e.apiKey?.map fun key => ("x-api-key", key)).toList ++ e.headers) payload

/-- A request in the Gemini format. -/
def geminiPost (e : Endpoint) (method : String) (payload : Json) :
    Except Wire.TransportFailure Request :=
  Request.post (e.geminiUrl method) (e.apiKey?.map fun key => ("key", key)).toList e.headers payload

/-- A request in the Ollama format. -/
def ollamaPost (e : Endpoint) (path : String) (payload : Json) :
    Except Wire.TransportFailure Request :=
  Request.post (e.url path) [] (e.bearer ++ e.headers) payload

/-! ### Models -/

/-- The model of an endpoint in the OpenAI format. -/
def openAi (e : Endpoint) : Model Network where
  provider := e.id
  name := e.model
  complete history tools options :=
    call (e.openAiPost "chat/completions")
      (Wire.OpenAi.chatPayload e.model e.maxTokens? history tools options false)
      (reading Wire.OpenAi.completion)
  stream history tools options :=
    call (e.openAiPost "chat/completions")
      (Wire.OpenAi.chatPayload e.model e.maxTokens? history tools options true)
      (streaming Wire.OpenAi.assembly)
  embed texts :=
    call (e.openAiPost "embeddings") (.ok (Wire.OpenAi.embedPayload e.model texts))
      (reading Wire.OpenAi.embeddings)
  rerank query documents :=
    call (e.openAiPost "rerank") (.ok (Wire.OpenAi.rerankPayload e.model query documents))
      (reading (Wire.OpenAi.scores · documents))

/-- The model of an endpoint in the Anthropic format. -/
def anthropic (e : Endpoint) : Model Network where
  provider := e.id
  name := e.model
  complete history tools options :=
    call e.anthropicPost
      (.ok (Wire.Anthropic.chatPayload e.model e.maxTokens? history tools options false))
      (reading Wire.Anthropic.completion)
  stream history tools options :=
    call e.anthropicPost
      (.ok (Wire.Anthropic.chatPayload e.model e.maxTokens? history tools options true))
      (streaming Wire.Anthropic.assembly)

/-- Complete a history in the Gemini format. -/
def geminiComplete (e : Endpoint) (history : List Message) (tools : List ToolSchema)
    (options : Options) : Network → Except Failure Completion × Network :=
  call (e.geminiPost "generateContent")
    (.ok (Wire.Gemini.chatPayload e.maxTokens? history tools options))
    (reading Wire.Gemini.completion)

/-- The model of an endpoint in the Gemini format, which has no stream of its own. -/
def gemini (e : Endpoint) : Model Network where
  provider := e.id
  name := e.model
  complete := e.geminiComplete
  stream := Model.streamOf e.geminiComplete
  embed texts :=
    call (e.geminiPost "batchEmbedContents")
      (.ok (Wire.Gemini.embedPayload e.geminiModelName texts)) (reading Wire.Gemini.embeddings)

/-- The model of an endpoint in the Ollama format. -/
def ollama (e : Endpoint) : Model Network where
  provider := e.id
  name := e.model
  complete history tools options :=
    call (e.ollamaPost "api/chat")
      (Wire.Ollama.chatPayload e.model e.maxTokens? history tools options false)
      (reading Wire.Ollama.completion)
  stream history tools options :=
    call (e.ollamaPost "api/chat")
      (Wire.Ollama.chatPayload e.model e.maxTokens? history tools options true)
      (streaming Wire.Ollama.assembly)
  embed texts :=
    call (e.ollamaPost "api/embed") (.ok (Wire.Ollama.embedPayload e.model texts))
      (reading Wire.Ollama.embeddings)

/-- The model of an endpoint in a format. -/
def remote (e : Endpoint) : ApiFormat → Model Network
  | .openAi => e.openAi
  | .anthropic => e.anthropic
  | .gemini => e.gemini
  | .ollama => e.ollama

end Endpoint

/-- The model that a resolved model stands for.  Its provider must speak a known format, whose name
may have blanks around it. -/
def Resolved.remote (r : Resolved) : Except SelectionError (Model Network) :=
  match ApiFormat.ofName? (Text.trim r.provider.apiFormat) with
  | none => .error (.unsupportedFormat r.provider.id r.provider.apiFormat)
  | some format => .ok ((Endpoint.ofResolved r).remote format)

end Parley.Provider
