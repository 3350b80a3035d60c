import Parley.Net.Base64
import Parley.Net.Url
import Parley.Wire.Body

/-!
# Requests and replies

A `Request` is sent through a `Network` and answered by a `Reply` or a failure.  The network is a
value: it knows whether hosts can be reached at all and how they will answer, one outcome after the
other, and it keeps the requests that reached a host.

`Network.send` follows redirections as far as `redirectLimit` allows.
-/

namespace Parley.Net

open Wire (Body TransportFailure)

/-! ### Requests -/

/-- What a request asks for. -/
inductive Method where
  | get
  | post
deriving DecidableEq, Repr

/-- The name of a method. -/
def Method.name : Method → String
  | .get => "GET"
  | .post => "POST"

/-- A request. -/
structure Request where
  /-- What it asks for. -/
  method : Method
  /-- Whom it asks. -/
  url : Url
  /-- Names, in lower case, and values of its headers. -/
  headers : List (String × String)
  /-- Its body. -/
  body? : Option Json
deriving DecidableEq, Repr

namespace Request

/-- Whether a character may occur in the name of a header. -/
def isNameChar (c : Char) : Bool := c.isAlphanum || "!#$%&'*+-.^_`|~".toList.contains c

/-- Whether a character may occur in the value of a header. -/
def isValueChar (c : Char) : Bool := c = '\t' || (0x20 ≤ c.val && c.val ≠ 0x7F)

/-- A header, unless its name or its value is malformed. -/
def header (field : String × String) : Except TransportFailure (String × String) :=
  if field.1.isEmpty || !field.1.toList.all isNameChar then
    .error (.badHeader "invalid HTTP header name")
  else if !field.2.toList.all isValueChar then .error (.badHeader "failed to parse header value")
  else .ok (Text.lowerAscii field.1, field.2)

/-- The header that carries the credentials of an address. -/
def credentials (url : Url) : List (String × String) :=
  let read (s : String) : Option String := Text.Utf8.decode? (Percent.decode s)
  match read url.username with
  | none => []
  | some name =>
    match url.password?.bind read with
    | none => if name.isEmpty then [] else [basic name ""]
    | some password => [basic name password]
where
  /-- The header for a name and a password. -/
  basic (name password : String) : String × String :=
    ("authorization",
      "Basic " ++ String.ofList (Base64.encode (Text.Utf8.encode (name ++ ":" ++ password))))

/-- A request to an address that has been read.  Its credentials become a header. -/
def toUrl (method : Method) (url : Url) (headers : List (String × String)) (body? : Option Json) :
    Except TransportFailure Request := do
  let given := credentials url
  let url := if given.isEmpty then url else { url with username := "", password? := none }
  let headers ← headers.mapM header
  if url.host?.isNone || !(["http", "https"].contains url.scheme) then
    .error (.refusedScheme url.toString)
  else return ⟨method, url, given ++ headers, body?⟩

/-- A request that posts JSON to an address. -/
def post (url : String) (query headers : List (String × String)) (body : Json) :
    Except TransportFailure Request :=
  match Url.parse url with
  | .error e => .error (.badAddress e.message)
  | .ok url =>
    toUrl .post (query.foldl (fun u (name, value) => u.addQuery name value) url)
      (("content-type", "application/json") :: headers) (some body)

/-- The request that follows a redirection.  Most redirections turn it into a plain question, and a
new host is not told the secrets of the old one. -/
def redirected (r : Request) (status : Nat) (target : Url) : Request :=
  let keeps := status = 307 || status = 308
  let changesHost := r.url.host? ≠ target.host? || r.url.port? ≠ target.port? ||
    r.url.scheme ≠ target.scheme
  let isDropped (name : String) : Bool :=
    (!keeps && name = "content-type") || (changesHost && ["authorization", "cookie"].contains name)
  { method := if keeps then r.method else .get
    url := target
    headers := r.headers.filter (!isDropped ·.1)
    body? := if keeps then r.body? else none }

end Request

/-! ### Replies -/

/-- A reply. -/
structure Reply where
  /-- The status. -/
  status : Nat
  /-- Names and values of its headers. -/
  headers : List (String × String)
  /-- Its body. -/
  body : Body
deriving DecidableEq

namespace Reply

/-- Whether the status reports success. -/
def isSuccess (r : Reply) : Bool := 200 ≤ r.status && r.status < 300

/-- The value of the first header with a name in lower case. -/
def header? (r : Reply) (name : String) : Option String :=
  (r.headers.find? fun field => Text.lowerAscii field.1 == name).map (·.2)

/-- Where a reply redirects to. -/
def redirection? (r : Reply) (base : Url) : Option Url :=
  if [301, 302, 303, 307, 308].contains r.status then
    (r.header? "location").bind fun place => (base.join place).toOption
  else none

end Reply

/-! ### The network -/

/-- What comes of a request that reaches a host. -/
inductive Outcome where
  /-- The host answers. -/
  | reply (reply : Reply)
  /-- The host closes the connection. -/
  | dropped

/-- The hosts that can be asked. -/
structure Network where
  /-- Whether hosts can be reached. -/
  reachable : Bool := true
  /-- What will come of the next requests, in order. -/
  outcomes : List Outcome := []
  /-- What comes of all requests after those. -/
  otherwise : Outcome := .dropped
  /-- The requests that reached a host, the last first. -/
  received : List Request := []

namespace Network

/-- The requests that reached a host, in order. -/
def requests (n : Network) : List Request := n.received.reverse

/-- Send one request. -/
def transmit (n : Network) (r : Request) : Except TransportFailure Reply × Network :=
  if n.reachable then
    let n' := { n with outcomes := n.outcomes.tail, received := r :: n.received }
    match n.outcomes.headD n.otherwise with
    | .reply reply => (.ok reply, n')
    | .dropped => (.error (.dropped r.url.toString), n')
  else (.error (.unreachable r.url.toString), n)

/-- How many redirections are followed in a row. -/
def redirectLimit : Nat := 10

/-- Send a request and follow at most `limit` redirections. -/
def sendWithin (limit : Nat) (n : Network) (r : Request) :
    Except TransportFailure Reply × Network :=
  match n.transmit r with
  | (.error e, n) => (.error e, n)
  | (.ok reply, n) =>
    match reply.redirection? r.url with
    | none => (.ok reply, n)
    | some url =>
      match limit with
      | 0 => (.error (.tooManyRedirects r.url.toString), n)
      | limit + 1 => sendWithin limit n (r.redirected reply.status url)

/-- Send a request. -/
def send (n : Network) (r : Request) : Except TransportFailure Reply × Network :=
  sendWithin redirectLimit n r

end Network

end Parley.Net
