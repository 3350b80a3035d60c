import Parley.Assistant

/-!
# What the service answers

A `Response` is a value, the events of a turn, or nothing but a status.  A request that is
understood and cannot be served is answered with a `ServiceError` as a value: `ServiceError.status`
says whose fault it is.
-/

namespace Parley.Service

open Chat (Event)
open Provider (SelectionError)
open Wire (Failure)

/-- An answer of the service. -/
inductive Response where
  /-- A value, which is left out when only the head of the answer was asked for. -/
  | json (status : Nat) (body? : Option Json)
  /-- Events as they happen.  They are not to be cached. -/
  | events (events : List Event)
  /-- A request that no part of the service takes. -/
  | refused (status : Nat)

/-- Why a request is not served. -/
inductive ServiceError where
  /-- No model can be chosen. -/
  | selection (error : SelectionError)
  /-- The model failed. -/
  | failure (error : Failure)
  /-- The request asks for nothing. -/
  | badRequest (what : String)

namespace ServiceError

/-- The status that reports an error: 400 when the client can do something about it, 503 when no
model is ready and 502 when the model failed. -/
def status : ServiceError → Nat
  | .selection (.unsupportedFormat ..) => 400
  | .selection _ => 503
  | .failure (.unsupported _) => 400
  | .failure _ => 502
  | .badRequest _ => 400

/-- The wording of an error. -/
def message : ServiceError → String
  | .selection e => e.message
  | .failure e => e.message
  | .badRequest s => s

/-- The answer that reports an error. -/
def response (e : ServiceError) : Response :=
  .json e.status (some (.object [("error", .str e.message)]))

/-- The error of a turn without an outcome. -/
def ofTurnError : Assistant.TurnError → ServiceError
  | .selection e => .selection e
  | .failure e => .failure e

end ServiceError

/-- The answer that a result makes: a value, or the error. -/
def Response.ofResult : Except ServiceError Json → Response
  | .ok v => .json 200 (some v)
  | .error e => e.response

end Parley.Service
