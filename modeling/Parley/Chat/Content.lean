import Parley.Json.Record
import Parley.Text.Pieces

/-!
# The body of a message

A body is a plain text or an ordered list of blocks, each of them a text or an image.
`Content.text` and `Content.images` are the two views of a body; `Content.extend` puts one body
behind another, where two plain texts become one text with a line break between them and anything
else becomes a list of blocks.

An image is an address.  An address of the form `data:<type>;base64,<payload>` carries the image
itself, and `Image.inline?` splits it.
-/

namespace Parley.Chat

/-! ### Images -/

/-- An image in a message. -/
structure Image where
  /-- A remote address, or an address that carries the image. -/
  url : String
  /-- How closely the model is to look at the image. -/
  detail? : Option String := none
deriving DecidableEq, Repr

/-- An image that its address carries. -/
structure InlineImage where
  /-- The media type. -/
  mimeType : String
  /-- The payload in base64. -/
  data : String
deriving DecidableEq, Repr

/-- The image that carries a payload of a media type. -/
def Image.ofData (data mimeType : String) : Image :=
  ⟨"data:" ++ mimeType ++ ";base64," ++ data, none⟩

/-- What the address of an image carries: between `data:` and the first comma stands the media type
with `;base64` behind it, and the payload is what follows that comma. -/
def Image.inline? (image : Image) : Option InlineImage := do
  let rest ← Text.after? "data:" image.url
  let (header, data) ← Text.splitOnce? ',' rest
  let mimeType ← Text.before? ";base64" header
  return ⟨mimeType, data⟩

/-! ### Blocks and bodies -/

/-- A block of a body. -/
inductive Block where
  /-- A text. -/
  | text (text : String)
  /-- An image. -/
  | image (image : Image)
deriving DecidableEq, Repr

/-- The text of a text block. -/
def Block.text? : Block → Option String
  | .text t => some t
  | .image _ => none

/-- The image of an image block. -/
def Block.image? : Block → Option Image
  | .text _ => none
  | .image i => some i

/-- The body of a message. -/
inductive Content where
  /-- A plain text. -/
  | plain (text : String)
  /-- A list of blocks. -/
  | blocks (blocks : List Block)
deriving DecidableEq, Repr

namespace Content

/-- The body without anything in it. -/
def empty : Content := .plain ""

instance : Inhabited Content := ⟨empty⟩

/-- All text of a body, with line breaks between text blocks. -/
def text : Content → String
  | .plain t => t
  | .blocks bs => Text.join "\n" (bs.filterMap Block.text?)

/-- All images of a body. -/
def images : Content → List Image
  | .plain _ => []
  | .blocks bs => bs.filterMap Block.image?

/-- Whether a body is the empty text or the empty list. -/
def isEmpty : Content → Bool
  | .plain t => t.isEmpty
  | .blocks bs => bs.isEmpty

/-- A body as blocks.  The empty text has none. -/
def toBlocks : Content → List Block
  | .plain t => if t.isEmpty then [] else [.text t]
  | .blocks bs => bs

/-- Put a body behind another one. -/
def extend : Content → Content → Content
  | .plain a, .plain b => .plain (if a.isEmpty || b.isEmpty then a ++ b else a ++ "\n" ++ b)
  | a, b => .blocks (a.toBlocks ++ b.toBlocks)

end Content

/-! ### Written form -/

open Json (required optional)

/-- An image as a value. -/
def Image.toJson (image : Image) : Json :=
  .object (("url", .str image.url) :: Json.member? "detail" .str image.detail?)

/-- Read an image. -/
def Image.ofJson? (v : Json) : Option Image := do
  guard (v.isRecord 2)
  return ⟨← required (v.field? 0 "url") Json.str?, ← optional (v.field? 1 "detail") Json.str?⟩

/-- A block as a value, with its kind under `type`. -/
def Block.toJson : Block → Json
  | .text t => .object [("type", .str "text"), ("text", .str t)]
  | .image i => .object [("type", .str "image_url"), ("image_url", i.toJson)]

/-- Separate the kind of a tagged value from the rest of it: the member `type` of an object, or the
first element of a list. -/
def tagged? : Json → Option (Json × Json)
  | .obj members => do return (← members.lookup "type", .obj (Entries.erase "type" members))
  | .arr (tag :: rest) => some (tag, .arr rest)
  | _ => none

/-- The kind of a block that a tag stands for: its name, or its place in the list of kinds. -/
def Block.kind? : Json → Option String
  | .str name => some name
  | .num (.int i) => if i < 0 then none else ["text", "image_url"][i.toNat]?
  | _ => none

/-- Read a block. -/
def Block.ofJson? (v : Json) : Option Block := do
  let (tag, v) ← tagged? v
  match ← Block.kind? tag with
  | "text" =>
    guard (v.isRecord 1)
    return .text (← required (v.field? 0 "text") Json.str?)
  | "image_url" =>
    guard (v.isRecord 1)
    return .image (← required (v.field? 0 "image_url") Image.ofJson?)
  | _ => none

/-- A body as a value. -/
def Content.toJson : Content → Json
  | .plain t => .str t
  | .blocks bs => .arr (bs.map Block.toJson)

/-- Read a body. -/
def Content.ofJson? : Json → Option Content
  | .str s => some (.plain s)
  | .arr items => (items.mapM Block.ofJson?).map .blocks
  | _ => none

end Parley.Chat
