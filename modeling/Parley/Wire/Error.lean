import Parley.Json.Parser
import Parley.Json.Printer

/-!
# Failures of a model call

`Failure` lists the causes for which a call to a model can fail, and `Failure.message` has their
wording.  Causes below the level of the protocol, where no complete reply was received, are
`TransportFailure`s.

Models report a history that is too long in an error object of their own; `contextFailure?`
recognises it.
-/

namespace Parley.Wire

/-- Why no complete reply was received.  The causes name the address that was asked. -/
inductive TransportFailure where
  /-- The address is malformed. -/
  | badAddress (reason : String)
  /-- The scheme of the address is not one that requests are sent by. -/
  | refusedScheme (url : String)
  /-- A header of the request is malformed. -/
  | badHeader (reason : String)
  /-- No connection to the host could be made. -/
  | unreachable (url : String)
  /-- The connection was closed before the reply. -/
  | dropped (url : String)
  /-- Too many redirections followed each other. -/
  | tooManyRedirects (url : String)
  /-- The connection was closed within the body. -/
  | truncated
  /-- The body of a reply that should be JSON is not. -/
  | notJson (error : Json.ParseError)
  /-- The body of a reply that should be JSON is not text. -/
  | notText
deriving DecidableEq, Repr

/-- The wording of a failed transport. -/
def TransportFailure.message : TransportFailure → String
  | .badAddress reason => "builder error: " ++ reason
  | .refusedScheme url => "builder error for url (" ++ url ++ "): URL scheme is not allowed"
  | .badHeader reason => "builder error: " ++ reason
  | .unreachable url =>
    "error sending request for url (" ++ url ++
      "): error trying to connect: tcp connect error: Network is unreachable (os error 101)"
  | .dropped url =>
    "error sending request for url (" ++ url ++ "): connection closed before message completed"
  | .tooManyRedirects url => "error following redirect for url (" ++ url ++ "): too many redirects"
  | .truncated =>
    "request or response body error: error reading a body from connection: " ++
      "end of file before message length reached"
  | .notJson e => "error decoding response body: " ++ e.message
  | .notText => "error decoding response body: invalid unicode code point"

/-- Why a model call failed. -/
inductive Failure where
  /-- The reply has an error status. -/
  | http (status : Nat) (body : String)
  /-- A field of the reply that must be there is missing. -/
  | missingField (name : String)
  /-- The history is too long for the model. -/
  | contextLengthExceeded (text : String)
  /-- The model reports an error. -/
  | api (text : String)
  /-- The stream of a reply is broken. -/
  | stream (text : String)
  /-- The provider does not offer what was asked for. -/
  | unsupported (what : String)
  /-- No complete reply was received. -/
  | transport (cause : TransportFailure)
  /-- A line of the stream is not JSON. -/
  | json (error : Json.ParseError)
  /-- The request cannot be put into the provider's format. -/
  | invalidRequest (text : String)
deriving DecidableEq, Repr

/-- The wording of a failure. -/
def Failure.message : Failure → String
  | .http status body => "Request failed: " ++ toString status ++ " - " ++ body
  | .missingField name => "Response is missing '" ++ name ++ "'"
  | .contextLengthExceeded text => "Context length exceeded. Message: " ++ text
  | .api text => "Upstream API error: " ++ text
  | .stream text => "Stream error: " ++ text
  | .unsupported what => what ++ " is not supported by this provider"
  | .transport cause => "Transport error: " ++ cause.message
  | .json e => "Invalid JSON: " ++ e.message
  | .invalidRequest text => "Invalid request: " ++ text

/-- The codes under which models report a history that is too long. -/
def contextCodes : List String := ["context_length_exceeded", "string_above_max_length"]

/-- The failure that an error object reports when it is about a history that is too long. -/
def contextFailure? (error : Json) : Option Failure := do
  let code ← (← error.get? "code").str?
  if contextCodes.contains code then
    some (.contextLengthExceeded (((error.get? "message").bind Json.str?).getD "Unknown error"))
  else none

/-- The failure that an error object reports. -/
def reportedFailure (error : Json) : Failure := (contextFailure? error).getD (.api error.print)

end Parley.Wire
