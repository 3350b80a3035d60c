import Parley.Provider.Store
import Parley.Text.Pieces

/-!
# Where a model is called

An `Endpoint` is all that a call needs to know about a model and its provider.  Addresses are joined
from the host and a path with one slash between them, however many there were (`Endpoint.url`).

The formats have rules of their own for hosts that end in a version: `Endpoint.openAiUrl` and
`Endpoint.geminiModelPath`.
-/

namespace Parley.Provider

/-- One model of one provider. -/
structure Endpoint where
  /-- The id of the provider. -/
  id : String
  /-- Where the provider is. -/
  host : String
  /-- The name of the model. -/
  model : String
  /-- The secret that calls carry. -/
  apiKey? : Option String := none
  /-- The limit on the length of an answer. -/
  maxTokens? : Option Nat := none
  /-- Further headers of calls, in ascending order of name. -/
  headers : List (String × String) := []
deriving DecidableEq, Repr

namespace Endpoint

/-- The endpoint of a resolved model.  An empty key is no key. -/
def ofResolved (r : Resolved) : Endpoint where
  id := r.provider.id
  host := r.baseUrl
  model := r.model
  apiKey? := r.provider.apiKey?.filter (!·.isEmpty)
  maxTokens? := r.provider.maxTokens?
  headers := r.provider.headers

/-- A text without the slashes at its end. -/
def withoutEndSlashes (s : String) : String :=
  String.ofList (s.toList.reverse.dropWhile (· = '/')).reverse

/-- A text without the slashes at its start. -/
def withoutStartSlashes (s : String) : String := String.ofList (s.toList.dropWhile (· = '/'))

/-- The address of a path. -/
def url (e : Endpoint) (path : String) : String :=
  withoutEndSlashes e.host ++ "/" ++ withoutStartSlashes path

/-- Whether the host ends in a text, slashes behind it aside. -/
def hostEndsIn (e : Endpoint) (stop : String) : Bool :=
  stop.toList.isSuffixOf (withoutEndSlashes e.host).toList

/-- The address of a path in the OpenAI format.  The version is added to hosts that do not end in
it. -/
def openAiUrl (e : Endpoint) (path : String) : String :=
  if e.hostEndsIn "/v1" then e.url path else e.url ("v1/" ++ path)

/-- The path of the model in the Gemini format.  The version is added for hosts that do not end in
one, and the model may be named with or without the collection it is in. -/
def geminiModelPath (e : Endpoint) : String :=
  let model := Text.withoutLeading "models/" e.model
  if e.hostEndsIn "/v1beta" || e.hostEndsIn "/v1" then "models/" ++ model
  else "v1beta/models/" ++ model

/-- The address of a method of the model in the Gemini format. -/
def geminiUrl (e : Endpoint) (method : String) : String :=
  e.url (e.geminiModelPath ++ ":" ++ method)

/-- The name under which the Gemini format asks for embeddings of the model. -/
def geminiModelName (e : Endpoint) : String := Text.withoutLeading "v1beta/" e.geminiModelPath

end Endpoint

end Parley.Provider
