import Parley.Net.Exchange
import Parley.Tool.Registry
import Parley.Web.Status

/-!
# Fetching pages

The tool that asks for a page of the web once and shows the beginning of its text.
-/

namespace Parley.Web

open Chat (Arguments ToolError)
open Net (Network Reply Request Url)
open Tool (Output)

/-- The number of characters of a page that are shown by default. -/
def defaultLimit : Nat := 20000

/-- The address that a text names, if it is one of the web. -/
def addressOf (text : String) : Except ToolError Url :=
  match Url.parse text with
  | .error e => .error (.invalidParameters ("Invalid url '" ++ text ++ "': " ++ e.message))
  | .ok url =>
    if url.scheme = "http" ∨ url.scheme = "https" then .ok url
    else .error (.invalidParameters ("Unsupported url scheme '" ++ url.scheme ++ "'"))

/-- The value of a header, as far as it is plain text. -/
def plainHeader (reply : Reply) (name : String) : String :=
  let isPlain (c : Char) : Bool := c = '\t' || (0x20 ≤ c.val && c.val < 0x7F)
  ((reply.header? name).filter (·.toList.all isPlain)).getD ""

/-- What is shown of a reply. -/
def page (limit : Nat) (url : Url) (reply : Reply) : Except ToolError Output := do
  if !reply.isSuccess then
    throw (.executionFailed (url.toString ++ " answered with status " ++ statusText reply.status))
  match reply.body.text with
  | .error e => throw (.executionFailed ("Could not read body: " ++ e.message))
  | .ok text =>
    let total := text.length
    return .entries ("Fetched " ++ url.toString ++ " (" ++ toString total ++ " chars)")
      (Entries.ofList [("url", .str url.toString), ("status", .nat reply.status),
        ("content_type", .str (plainHeader reply "content-type")),
        ("truncated", .bool (decide (limit < total))),
        ("content", .str (String.ofList (text.toList.take limit)))])

/-- Fetch the page that the arguments name. -/
def fetch (limit : Nat) (arguments : Arguments) (n : Network) :
    Except ToolError Output × Network :=
  match (arguments.lookup "url").bind Json.str? with
  | none => (.error (.invalidParameters "Missing 'url' parameter"), n)
  | some text =>
    match addressOf text with
    | .error e => (.error e, n)
    | .ok url =>
      match Request.toUrl .get url [] none with
      | .error e => (.error (.executionFailed ("Request failed: " ++ e.message)), n)
      | .ok request =>
        match n.send request with
        | (.error e, n) => (.error (.executionFailed ("Request failed: " ++ e.message)), n)
        | (.ok reply, n) => (page limit url reply, n)

/-- The tool that fetches pages. -/
def fetchTool (limit : Nat) : Tool Network where
  schema :=
    ⟨"web_fetch", "Fetch a web page over http(s) and return its text content.",
      .object [("type", .str "object"), ("required", Json.texts ["url"]),
        ("properties", .object [("url", .object [("type", .str "string"),
          ("description", .str "Absolute http or https url.")])])]⟩
  handler := fetch limit

end Parley.Web
