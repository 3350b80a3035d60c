import Parley.Net.Host
import Parley.Text.Blank

/-!
# Addresses

`Url.parse` reads an absolute address as browsers do, `Url.join` an address relative to another, and
`Url.toString` writes it in its one normal form: the scheme and the host in lower case, no port
where it is the scheme's own, no dot segments in the path and every character that may not stand for
itself encoded.

Controls and spaces around an address, and tabs and line breaks anywhere in it, are dropped.  The
schemes of the web (`isSpecial`) need a host, and a backslash is a slash in their addresses.
-/

namespace Parley.Net

/-- The path of an address. -/
inductive UrlPath where
  /-- A path that is no list of segments. -/
  | plain (text : String)
  /-- The segments behind the slashes. -/
  | segments (segments : List String)
deriving DecidableEq, Repr

/-- An address.  All parts are kept as they are written. -/
structure Url where
  /-- The scheme, in lower case. -/
  scheme : String
  /-- The user name. -/
  username : String := ""
  /-- The password. -/
  password? : Option String := none
  /-- The host. -/
  host? : Option String := none
  /-- The port, where it is not the scheme's own. -/
  port? : Option Nat := none
  /-- The path. -/
  path : UrlPath := .segments []
  /-- What follows a question mark. -/
  query? : Option String := none
  /-- What follows a number sign. -/
  fragment? : Option String := none
deriving DecidableEq, Repr

namespace Url

/-! ### Schemes -/

/-- The port of a scheme of the web; files have none. -/
def defaultPort? : String → Option Nat
  | "http" | "ws" => some 80
  | "https" | "wss" => some 443
  | "ftp" => some 21
  | _ => none

/-- Whether a scheme is one of the web's. -/
def isSpecial (scheme : String) : Bool := scheme = "file" || (defaultPort? scheme).isSome

/-- Whether a character may follow the first one in a scheme. -/
def isSchemeChar (c : Char) : Bool := c.isAlphanum || "+-.".toList.contains c

/-- The scheme at the beginning of an address, and what follows its colon. -/
def scheme? (cs : List Char) : Option (String × List Char) :=
  match cs.span isSchemeChar with
  | (c :: name, ':' :: rest) =>
    if c.isAlpha then some (String.ofList ((c :: name).map Char.toLower), rest) else none
  | _ => none

/-- The characters of an address that count. -/
def clean (s : String) : List Char :=
  let isOuter (c : Char) : Bool := c.val ≤ 0x20
  (Text.dropEndWhile isOuter (s.toList.dropWhile isOuter)).filter
    fun c => c ≠ '\t' && c ≠ '\n' && c ≠ '\r'

/-! ### Paths -/

/-- Whether a character is a slash. -/
def isSlash (special : Bool) (c : Char) : Bool := c = '/' || (special && c = '\\')

/-- Whether a segment stands for the directory itself. -/
def isDot (segment : String) : Bool := [".", "%2e"].contains (Text.lowerAscii segment)

/-- Whether a segment stands for the directory above. -/
def isDotDot (segment : String) : Bool :=
  ["..", ".%2e", "%2e.", "%2e%2e"].contains (Text.lowerAscii segment)

/-- Add a segment to a path; the last one leaves a slash at the end where it stands for a
directory. -/
def addSegment (path : List String) (segment : String) (isLast : Bool) : List String :=
  if isDotDot segment then path.dropLast ++ (if isLast then [""] else [])
  else if isDot segment then path ++ (if isLast then [""] else [])
  else path ++ [segment]

/-- Add segments to a path. -/
def addSegments (path : List String) : List String → List String
  | [] => path
  | [last] => addSegment path last true
  | segment :: rest => addSegments (addSegment path segment false) rest

/-- The path that a text leads to from a path. -/
def walk (special : Bool) (path : List String) (cs : List Char) : List String :=
  addSegments path ((Text.split (isSlash special) cs).map
    fun segment => String.ofList (Percent.encode Percent.inPath segment))

/-! ### The parts of an address -/

/-- Separate the fragment and the query from what comes before them. -/
def splitTail (cs : List Char) : List Char × Option (List Char) × Option (List Char) :=
  let (front, fragment) := cs.span (· ≠ '#')
  let (path, query) := front.span (· ≠ '?')
  (path, query.tail?, fragment.tail?)

/-- Put a query and a fragment behind an address. -/
def withTail (u : Url) (query? fragment? : Option (List Char)) : Url :=
  let inQuery := if isSpecial u.scheme then Percent.inSpecialQuery else Percent.inQuery
  { u with
    query? := query?.map fun q => String.ofList (Percent.encode inQuery q)
    fragment? := fragment?.map fun f => String.ofList (Percent.encode Percent.inFragment f) }

/-- The user name and the password in front of a host. -/
def credentials (cs : List Char) : String × Option String :=
  let encode (cs : List Char) : String := String.ofList (Percent.encode Percent.inUserInfo cs)
  match cs.span (· ≠ ':') with
  | (name, []) => (encode name, none)
  | (name, _ :: password) =>
    (encode name, if password.isEmpty then none else some (encode password))

/-- The port behind a host; none where it is the scheme's own. -/
def port (scheme : String) (cs : List Char) : Except UrlError (Option Nat) :=
  match Text.number? 10 cs with
  | none => .error .invalidPort
  | some n =>
    if 65536 ≤ n then .error .invalidPort
    else .ok (if cs.isEmpty || defaultPort? scheme = some n then none else some n)

/-- Separate the host from the port behind it: they meet at the first colon outside brackets. -/
def splitPort (inBrackets : Bool) (host : List Char) : List Char → List Char × Option (List Char)
  | [] => (host.reverse, none)
  | c :: rest =>
    if c = ':' && !inBrackets then (host.reverse, some rest)
    else
      splitPort (if c = '[' then true else if c = ']' then false else inBrackets) (c :: host) rest

/-- Separate what precedes the last occurrence of a character from what follows it. -/
def splitLast? (mark : Char) (cs : List Char) : Option (List Char × List Char) :=
  match cs.reverse.span (· ≠ mark) with
  | (_, []) => none
  | (after, _ :: before) => some (before.reverse, after.reverse)

/-- The host of an address, which the schemes of the web do not do without. -/
def hostOf (special : Bool) (cs : List Char) : Except UrlError String :=
  if special then
    if cs.isEmpty then .error .emptyHost else Host.parse (String.ofList cs)
  else Host.parsePlain (String.ofList cs)

/-- The address of a host: what stands between two slashes and the path, with credentials, host and
port. -/
def authority (scheme : String) (cs : List Char) : Except UrlError Url := do
  let special := isSpecial scheme
  let (user?, rest) := match splitLast? '@' cs with
    | some (user, rest) => (some user, rest)
    | none => (none, cs)
  let (name, password?) := credentials (user?.getD [])
  let (host, portText?) := splitPort false [] rest
  let host ← hostOf special host
  if host.isEmpty && (portText?.isSome || !name.isEmpty || password?.isSome) then .error .emptyHost
  else
    return { scheme, username := name, password?, host? := if host.isEmpty then none else some host
             port? := ← port scheme (portText?.getD []) }

/-- An address from its authority on. -/
def afterSlashes (scheme : String) (cs : List Char) : Except UrlError Url := do
  let special := isSpecial scheme
  let (front, query?, fragment?) := splitTail cs
  let (host, path) := front.span (!isSlash special ·)
  let u ← authority scheme host
  let segments := match path with
    | [] => if special then walk special [] [] else []
    | _ :: path => walk special [] path
  return withTail { u with path := .segments segments } query? fragment?

/-- Whether a host is the letter of a drive. -/
def isDrive : List Char → Bool
  | [c, d] => c.isAlpha && (d = ':' || d = '|')
  | _ => false

/-- The address of a file. -/
def file (cs : List Char) : Except UrlError Url := do
  let (front, query?, fragment?) := splitTail cs
  let (host, path) ← match front with
    | a :: b :: rest =>
      if isSlash true a && isSlash true b then
        let (host, path) := rest.span (!isSlash true ·)
        if host.isEmpty || isDrive host then pure ("", rest)
        else pure (← Host.parse (String.ofList host), path)
      else pure ("", front)
    | _ => pure ("", front)
  let path := match path with
    | c :: rest => if isSlash true c then rest else path
    | [] => []
  let u : Url :=
    { scheme := "file", host? := if host = "localhost" then some "" else some host
      path := .segments (walk true [] path) }
  return withTail u query? fragment?

/-- An address behind a scheme. -/
def afterScheme (scheme : String) (cs : List Char) : Except UrlError Url :=
  if scheme = "file" then file cs
  else if isSpecial scheme then afterSlashes scheme (cs.dropWhile (isSlash true))
  else match cs with
    | '/' :: '/' :: rest => afterSlashes scheme rest
    | _ =>
      let (front, query?, fragment?) := splitTail cs
      let path := match front with
        | '/' :: path => UrlPath.segments (walk false [] path)
        | _ => .plain (String.ofList (Percent.encode Percent.isControl front))
      .ok (withTail { scheme, path } query? fragment?)

/-- Read an absolute address. -/
def parse (s : String) : Except UrlError Url :=
  match scheme? (clean s) with
  | some (scheme, rest) => afterScheme scheme rest
  | none => .error .relativeWithoutBase

/-! ### Relative addresses -/

/-- The segments of a path. -/
def pathSegments (u : Url) : List String :=
  match u.path with
  | .segments segments => segments
  | .plain _ => []

/-- The address that a text without a scheme leads to. -/
def joinRelative (base : Url) (cs : List Char) : Except UrlError Url :=
  let special := isSpecial base.scheme
  let (front, query?, fragment?) := splitTail cs
  let along (segments : List String) : Url :=
    withTail { base with path := .segments segments } query? fragment?
  match front with
  | [] =>
    match query? with
    | some _ => .ok (withTail base query? fragment?)
    | none => .ok { withTail base none fragment? with query? := base.query? }
  | c :: rest =>
    if isSlash special c then
      if (rest.head?.map (isSlash special)).getD false then
        afterSlashes base.scheme (if special then cs.dropWhile (isSlash special) else cs.drop 2)
      else .ok (along (walk special [] rest))
    else .ok (along (walk special base.pathSegments.dropLast front))

/-- Read an address relative to another one of the web. -/
def join (base : Url) (s : String) : Except UrlError Url :=
  let cs := clean s
  match scheme? cs with
  | some (scheme, rest) =>
    let slashes := (rest.takeWhile (isSlash true)).length
    if scheme = base.scheme && isSpecial scheme && slashes < 2 then joinRelative base rest
    else afterScheme scheme rest
  | none => joinRelative base cs

/-! ### Writing -/

/-- The path in writing. -/
def pathText (u : Url) : String :=
  match u.path with
  | .plain s => s
  | .segments segments => String.join (segments.map ("/" ++ ·))

/-- The credentials in writing, with the mark behind them. -/
def credentialsText (u : Url) : String :=
  match u.password? with
  | some password => u.username ++ ":" ++ password ++ "@"
  | none => if u.username.isEmpty then "" else u.username ++ "@"

/-- The authority in writing, with the slashes before it. -/
def authorityText (u : Url) : String :=
  match u.host? with
  | none =>
    match u.path with
    | .segments ("" :: _ :: _) => "/."
    | _ => ""
  | some host =>
    "//" ++ u.credentialsText ++ host ++ (u.port?.elim "" fun n => ":" ++ toString n)

/-- An address in writing. -/
protected def toString (u : Url) : String :=
  u.scheme ++ ":" ++ u.authorityText ++ u.pathText ++ (u.query?.elim "" ("?" ++ ·)) ++
    (u.fragment?.elim "" ("#" ++ ·))

instance : ToString Url := ⟨Url.toString⟩

/-- Add a name with a value to the query. -/
def addQuery (u : Url) (name value : String) : Url :=
  let pair := Percent.formEncode name ++ "=" ++ Percent.formEncode value
  let query := match u.query? with
    | none | some "" => pair
    | some query => query ++ "&" ++ pair
  { u with query? := some query }

end Url

end Parley.Net
