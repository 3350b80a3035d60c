import Parley.Json.Parser
import Parley.Service.MediaType
import Parley.Service.Response

/-!
# The service

Clients reach an assistant through six routes.  Two can be looked at: `/status` and `/tools`.  The
others take a JSON value: `/reply` and `/ask` play a turn, `/embed` embeds texts and `/rerank` ranks
documents.

`Service.answer` answers a request.  What a route does not take is refused in a fixed order: an
unknown path, a wrong method, a body that is not sent as JSON, one that is too long or malformed,
and at last a value of the wrong shape.
-/

namespace Parley.Service

open Floating (Single)
open Net (Method)
open Provider (Ability Model)
open Wire (Failure)

/-! ### Routes -/

/-- A part of the service. -/
inductive Route where
  | status
  | tools
  | reply
  | ask
  | embed
  | rerank
deriving DecidableEq, Repr

namespace Route

/-- All routes. -/
def all : List Route := [.status, .tools, .reply, .ask, .embed, .rerank]

/-- The path of a route. -/
def path : Route → String
  | .status => "/status"
  | .tools => "/tools"
  | .reply => "/reply"
  | .ask => "/ask"
  | .embed => "/embed"
  | .rerank => "/rerank"

/-- The method of a route. -/
def method : Route → Method
  | .status | .tools => .get
  | .reply | .ask | .embed | .rerank => .post

/-- The route with a path. -/
def ofPath? (path : String) : Option Route := all.find? (·.path == path)

/-- Every route is found under its path. -/
theorem ofPath?_path (r : Route) : ofPath? r.path = some r := by cases r <;> decide

/-- Whether a route takes a method.  Where it can be looked at, its head alone can be asked for. -/
def takes (r : Route) (method : String) : Bool :=
  method == r.method.name || (r.method = .get && method == "HEAD")

end Route

/-! ### Requests -/

/-- A request to the service. -/
structure Request where
  /-- The name of the method. -/
  method : String
  /-- The path, with the query. -/
  target : String
  /-- What the body claims to be. -/
  mediaType? : Option String
  /-- The body. -/
  body : String
deriving DecidableEq, Repr

/-- The path that a request asks for. -/
def Request.path (r : Request) : String :=
  String.ofList (r.target.toList.takeWhile fun c => c != '?' && c != '#')

/-- How many bytes a body may have. -/
def bodyLimit : Nat := 2 * 1024 * 1024

/-- The value that a request brings, in the shape that a route reads, or the status that refuses
it. -/
def Request.read {α : Type} (r : Request) (ofJson? : Json → Option α) : Except Nat α :=
  if !(r.mediaType?.map MediaType.isJson).getD false then .error 415
  else if bodyLimit < r.body.utf8ByteSize then .error 413
  else match Json.parseFirst r.body with
    | .error _ => .error 400
    | .ok v =>
      match ofJson? v with
      | none => .error 422
      | some a => .ok a

/-- Texts to embed. -/
def embedOfJson? (v : Json) : Option (List String) := do
  guard (v.isRecord 1)
  Json.required (v.field? 0 "texts") (Json.listOf? Json.str?)

/-- A query and documents to rank for it. -/
def rerankOfJson? (v : Json) : Option (String × List String) := do
  guard (v.isRecord 2)
  return (← Json.required (v.field? 0 "query") Json.str?,
    ← Json.required (v.field? 1 "documents") (Json.listOf? Json.str?))

/-! ### Answers -/

/-- Let the model for an ability compute something, and report its name with the result. -/
def infer {α : Type} (a : Assistant) (ability : Ability) (name : String) (write : α → Json)
    (compute : Model Net.Network → Net.Network → Except Failure α × Net.Network)
    (s : Surroundings) :
    Except ServiceError Json × Surroundings :=
  match a.store.resolve ability >>= Provider.Resolved.remote with
  | .error e => (.error (.selection e), s)
  | .ok model =>
    let (result, network) := compute model s.network
    let answer := match result with
      | .error e => .error (.failure e)
      | .ok r => .ok (.object [("model", .str model.name), (name, write r)])
    (answer, s.withNetwork network)

/-- Embed texts. -/
def embed (a : Assistant) (texts : List String) (s : Surroundings) :
    Except ServiceError Json × Surroundings :=
  if texts.isEmpty then (.error (.badRequest "texts must not be empty"), s)
  else infer a .embedding "embeddings" (fun vectors => .arr (vectors.map floats)) (·.embed texts) s
where
  /-- A vector as a value. -/
  floats (v : List Single) : Json := .arr (v.map Single.toShortJson)

/-- Rank documents for a query. -/
def rerank (a : Assistant) (query : String) (documents : List String) (s : Surroundings) :
    Except ServiceError Json × Surroundings :=
  if documents.isEmpty then (.error (.badRequest "documents must not be empty"), s)
  else infer a .rerank "scores" (fun scores => .arr (scores.map Single.toShortJson))
    (·.rerank query documents) s

/-- Serve a route.  `ids` names the messages of the assistant. -/
def serve (a : Assistant) (ids : Nat → String) (route : Route) (r : Request) (s : Surroundings) :
    Response × Surroundings :=
  match route with
  | .status => look (.object [("status", .str "ok")])
  | .tools => look (.object [("tools", .arr a.registry.describe)])
  | .reply =>
    post Agent.Request.ofJson? fun request =>
      match a.reply ids request s with
      | (.ok events, s) => (.events events, s)
      | (.error e, s) => ((ServiceError.selection e).response, s)
  | .ask =>
    post Agent.Request.ofJson? fun request =>
      let (result, s) := a.ask request s
      (.ofResult ((result.mapError .ofTurnError).map Agent.Outcome.toJson), s)
  | .embed =>
    post embedOfJson? fun texts =>
      let (result, s) := embed a texts s
      (.ofResult result, s)
  | .rerank =>
    post rerankOfJson? fun (query, documents) =>
      let (result, s) := rerank a query documents s
      (.ofResult result, s)
where
  /-- Answer with a value that is always there. -/
  look (v : Json) : Response × Surroundings :=
    (.json 200 (if r.method == "HEAD" then none else some v), s)
  /-- Answer a request that brings a value. -/
  post {α : Type} (ofJson? : Json → Option α) (handle : α → Response × Surroundings) :
      Response × Surroundings :=
    match r.read ofJson? with
    | .error status => (.refused status, s)
    | .ok a => handle a

/-- Answer a request. -/
def answer (a : Assistant) (ids : Nat → String) (r : Request) (s : Surroundings) :
    Response × Surroundings :=
  match Route.ofPath? r.path with
  | none => (.refused 404, s)
  | some route =>
    if route.takes r.method then serve a ids route r s else (.refused 405, s)

end Parley.Service
