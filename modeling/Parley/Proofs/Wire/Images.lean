import Mathlib.Data.List.Forall2
import Parley.Proofs.Chat.Building
import Parley.Proofs.Json.Members
import Parley.Proofs.Text.Cuts
import Parley.Proofs.Wire.Dialogue
import Parley.Wire.Ollama.Request
import Parley.Wire.OpenAi.Request

/-!
# Images on their way to a service

An address carries an image when it is the address that is made of a payload and a media type
without a comma (`Image.inline?_eq_some_iff`).  It is cut at its first comma, so a payload may hold
commas, and a type may hold `data:` and `;base64`; only a type with a comma in it would be cut too
early.

`inline_images_arrive`: each format sends the type and the payload of an image that its address
carries, as far as it has a place for them, and an address only for the others.  What is sent is
read back as a service would read it (`Anthropic.picture?`, `Gemini.picture?`, `Ollama.payloads`,
`OpenAi.addresses`), and `Shows` says what is to come out.
-/

namespace Parley

/-! ### Addresses that carry an image -/

namespace Chat.Image

variable {image : Image} {data mimeType : String}

/-- **What an address carries** is what it is made of, if a comma does not end the type early. -/
theorem inline?_eq_some_iff : image.inline? = some ⟨mimeType, data⟩ ↔
    image.url = (ofData data mimeType).url ∧ ',' ∉ mimeType.toList := by
  have hmark : ',' ∉ ";base64".toList := by decide
  constructor
  · intro h
    simp only [inline?, Option.bind_eq_bind, Option.bind_eq_some_iff, Option.pure_def,
      Option.some.injEq, InlineImage.mk.injEq] at h
    obtain ⟨rest, hrest, ⟨header, payload⟩, hsplit, type, htype, rfl, rfl⟩ := h
    -- the type stands before the first comma, so it holds none
    obtain rfl : header = type ++ ";base64" := Text.before?_eq_some_iff.mp htype
    obtain ⟨hsplit, hcomma⟩ := Text.splitOnce?_eq_some_iff.mp hsplit
    rw [String.toList_append, List.mem_append, not_or] at hcomma
    refine ⟨?_, hcomma.1⟩
    rw [Text.after?_eq_some_iff.mp hrest, ofData, ← String.toList_inj]
    simp [hsplit]
  · rintro ⟨hurl, hcomma⟩
    have hrest : image.url = "data:" ++ (mimeType ++ ";base64" ++ "," ++ data) := by
      rw [hurl, ofData, ← String.toList_inj]
      simp
    -- the first comma is the one behind the type, whatever the payload holds
    have hsplit : Text.splitOnce? ',' (mimeType ++ ";base64" ++ "," ++ data) =
        some (mimeType ++ ";base64", data) := by
      rw [Text.splitOnce?_eq_some_iff]
      refine ⟨by simp, ?_⟩
      rw [String.toList_append, List.mem_append, not_or]
      exact ⟨hcomma, hmark⟩
    have htype : Text.before? ";base64" (mimeType ++ ";base64") = some mimeType :=
      Text.before?_eq_some_iff.mpr rfl
    rw [inline?, hrest, Text.after?_append]
    simp only [Option.bind_eq_bind, Option.bind_some, hsplit, htype]
    rfl

/-- An image that is made of a payload and a type carries them exactly when there is no comma in the
type. -/
theorem inline?_ofData_iff :
    (ofData data mimeType).inline? = some ⟨mimeType, data⟩ ↔ ',' ∉ mimeType.toList :=
  inline?_eq_some_iff.trans (and_iff_right rfl)

end Chat.Image

namespace Wire

open Chat (Block Content Image InlineImage Message)

/-! ### What a service gets -/

/-- What a service gets of an image. -/
inductive Picture where
  /-- The image itself. -/
  | carried (inline : InlineImage)
  /-- An address to fetch it from. -/
  | remote (url : String)
deriving DecidableEq, Repr

/-- The payload of an image that is sent itself. -/
def Picture.payload? : Picture → Option String
  | .carried inline => some inline.data
  | .remote _ => none

/-- What is to come of an image. -/
inductive Shows (image : Image) : Picture → Prop where
  /-- Its address is made of a type and a payload, and it comes as that type and that payload. -/
  | carried {data mimeType : String} (url : image.url = (Image.ofData data mimeType).url)
    (comma : ',' ∉ mimeType.toList) : Shows image (.carried ⟨mimeType, data⟩)
  /-- Its address is not, and comes as it is. -/
  | remote (url : ∀ data mimeType, ',' ∉ mimeType.toList →
    image.url ≠ (Image.ofData data mimeType).url) :
    Shows image (.remote image.url)

/-- What comes of an image by way of cutting its address. -/
def Picture.ofImage (image : Image) : Picture :=
  match image.inline? with
  | some inline => .carried inline
  | none => .remote image.url

/-- Exactly one thing is to come of an image. -/
theorem shows_iff {image : Image} {p : Picture} : Shows image p ↔ p = Picture.ofImage image := by
  rw [Picture.ofImage]
  cases h : image.inline? with
  | some inline =>
    obtain ⟨hurl, hcomma⟩ := Image.inline?_eq_some_iff.mp h
    constructor
    · intro hshows
      cases hshows with
      | carried url comma =>
        rw [Image.inline?_eq_some_iff.mpr ⟨url, comma⟩] at h
        rw [← Option.some.inj h]
      | remote url => exact absurd hurl (url _ _ hcomma)
    · rintro rfl
      exact .carried hurl hcomma
  | none =>
    constructor
    · intro hshows
      cases hshows with
      | carried url comma =>
        rw [Image.inline?_eq_some_iff.mpr ⟨url, comma⟩] at h
        cases h
      | remote url => rfl
    · rintro rfl
      refine .remote fun data mimeType hcomma hurl => ?_
      rw [Image.inline?_eq_some_iff.mpr ⟨hurl, hcomma⟩] at h
      cases h

theorem forall₂_shows_iff {images : List Image} {ps : List Picture} :
    List.Forall₂ Shows images ps ↔ ps = images.map .ofImage := by
  induction images generalizing ps with
  | nil => simp
  | cons image images ih => simp [List.forall₂_cons_left_iff, shows_iff, ih]

/-- The images of a message that is sent with its body.  Of the result of a tool only the text is
sent. -/
def shownImages (m : Message) : List Image := if m.role = .tool then [] else m.content.images

/-! ### Images in a dialogue -/

/-- What comes of an image that is an entry. -/
def Entry.picture? : Entry → Option Picture
  | .inlineImage mimeType data => some (.carried ⟨mimeType, data⟩)
  | .remoteImage url => some (.remote url)
  | _ => none

theorem picture?_ofBlock (b : Block) : (Entry.ofBlock b).picture? = b.image?.map .ofImage := by
  cases b with
  | text t => rfl
  | image i =>
    show (Entry.ofBlock (.image i)).picture? = some (.ofImage i)
    rw [Entry.ofBlock, Picture.ofImage]
    cases i.inline? <;> rfl

theorem filterMap_picture?_map_ofBlock (bs : List Block) :
    (bs.map Entry.ofBlock).filterMap Entry.picture? = (bs.filterMap Block.image?).map .ofImage := by
  rw [List.filterMap_map, List.map_filterMap]
  exact List.filterMap_congr fun b _ => picture?_ofBlock b

theorem filterMap_image?_filter_hasContent (bs : List Block) :
    (bs.filter hasContent).filterMap Block.image? = bs.filterMap Block.image? := by
  rw [List.filterMap_filter]
  refine List.filterMap_congr fun b _ => ?_
  cases b with
  | text t => exact ite_self none
  | image i => rfl

/-- The images among the entries of a message are those of its body. -/
theorem filterMap_picture?_entries (called : List (String × String)) (m : Message) :
    (entries called m).filterMap Entry.picture? = (shownImages m).map .ofImage := by
  have hcalls : (m.toolCalls.map Entry.ofCall).filterMap Entry.picture? = [] := by
    simp [Entry.ofCall, Entry.picture?]
  have hbody : (m.content.toBlocks.map Entry.ofBlock).filterMap Entry.picture? =
      m.content.images.map .ofImage := by
    rw [filterMap_picture?_map_ofBlock, m.content.filterMap_image?_toBlocks]
  rw [entries, shownImages]
  cases m.role with
  | tool => rfl
  | assistant =>
    simp only [List.filterMap_append, hcalls, List.append_nil]
    rw [filterMap_picture?_map_ofBlock, filterMap_image?_filter_hasContent,
      m.content.filterMap_image?_toBlocks]
    rfl
  | user => exact hbody
  | system => exact hbody

/-- The images in a dialogue are those of the messages behind the leading ones of the system, in
order. -/
theorem filterMap_picture?_dialogue (history : List Message) :
    ((dialogue history).flatMap (·.entries)).filterMap Entry.picture? =
      ((history.dropWhile isSystem).flatMap shownImages).map .ofImage := by
  have hsaid (called : List (String × String)) (ms : List Message) :
      ((said called ms).flatMap (·.entries)).filterMap Entry.picture? =
        (ms.flatMap shownImages).map .ofImage := by
    induction ms generalizing called with
    | nil => rfl
    | cons m ms ih =>
      rw [said, List.flatMap_cons, List.filterMap_append, ih, filterMap_picture?_entries,
        List.flatMap_cons, List.map_append]
  rw [entries_dialogue, hsaid]

/-! ### What is read in each format -/

/-- The elements of a member. -/
def elements (v : Json) (name : String) : List Json := (v.member name).items?.getD []

/-- What a service reads in turns, which have their entries under a name. -/
def picturesIn (name : String) (picture? : Json → Option Picture) (turns : List Json) :
    List Picture :=
  turns.flatMap fun t => (elements t name).filterMap picture?

theorem picturesIn_map {name : String} {picture? : Json → Option Picture} {entry : Entry → Json}
    {turn : Turn Entry → Json} (helements : ∀ t, elements (turn t) name = t.entries.map entry)
    (hentry : ∀ e, picture? (entry e) = e.picture?) (turns : List (Turn Entry)) :
    picturesIn name picture? (turns.map turn) =
      (turns.flatMap (·.entries)).filterMap Entry.picture? := by
  rw [picturesIn, List.flatMap_map, List.filterMap_flatMap]
  congr 1
  funext t
  rw [helements, List.filterMap_map]
  exact List.filterMap_congr fun e _ => hentry e

namespace Anthropic

/-- What a service reads in a block. -/
def picture? (block : Json) : Option Picture := do
  guard (block.member "type" = .str "image")
  let source := block.member "source"
  match source.member "type" with
  | .str "base64" =>
    return .carried ⟨← (source.member "media_type").str?, ← (source.member "data").str?⟩
  | .str "url" => return .remote (← (source.member "url").str?)
  | _ => none

/-- What a service reads in turns. -/
def pictures (turns : List Json) : List Picture := picturesIn "content" picture? turns

theorem picture?_entry (e : Entry) : picture? (entry e) = e.picture? := by cases e <;> rfl

theorem elements_turn (t : Turn Entry) : elements (turn t) "content" = t.entries.map entry := by
  rw [elements, (member_turn t).2]
  rfl

theorem pictures_messages (history : List Message) :
    pictures (messages history).2 = ((history.dropWhile isSystem).flatMap shownImages).map
      .ofImage := by
  have hturns := picturesIn_map elements_turn picture?_entry (dialogue history)
  rw [messages_eq, pictures, picturesIn, List.flatMap_append, ← picturesIn, ← picturesIn, hturns,
    filterMap_picture?_dialogue]
  -- the placeholder has no blocks
  split <;> rfl

end Anthropic

namespace Gemini

/-- What a service reads in a part. -/
def picture? (part : Json) : Option Picture :=
  match part.get? "inlineData" with
  | some v => do return .carried ⟨← (v.member "mimeType").str?, ← (v.member "data").str?⟩
  | none => do return .remote (← ((part.member "fileData").member "fileUri").str?)

/-- What a service reads in turns. -/
def pictures (turns : List Json) : List Picture := picturesIn "parts" picture? turns

theorem picture?_entry (e : Entry) : picture? (entry e) = e.picture? := by cases e <;> rfl

theorem pictures_messages (history : List Message) :
    pictures (messages history).2 = ((history.dropWhile isSystem).flatMap shownImages).map
      .ofImage := by
  rw [messages_eq, pictures, picturesIn_map (fun _ => rfl) picture?_entry,
    filterMap_picture?_dialogue]

end Gemini

namespace Ollama

/-- What a service reads in a message.  The format has a place for payloads only. -/
def payloads (message : Json) : List String := (elements message "images").filterMap Json.str?

theorem payload?_ofImage (i : Image) : (Picture.ofImage i).payload? = i.inline?.map (·.data) := by
  rw [Picture.ofImage]
  cases i.inline? <;> rfl

theorem imageData_eq (m : Message) :
    imageData m = (m.content.images.map Picture.ofImage).filterMap Picture.payload? := by
  rw [imageData, List.filterMap_map]
  exact List.filterMap_congr fun i _ => (payload?_ofImage i).symm

theorem elements_messageSpec {m : Message} (h : m.role ≠ .tool) :
    elements (messageSpec m) "images" = (imageData m).map .str := by
  rw [messageSpec, if_neg h, elements, Json.member_object]
  -- there is no such member where no image is carried
  cases himages : imageData m with
  | nil => cases m.hasToolCalls <;> rfl
  | cons data more => cases m.hasToolCalls <;> rfl

theorem payloads_messageSpec (m : Message) :
    payloads (messageSpec m) =
      ((shownImages m).map Picture.ofImage).filterMap Picture.payload? := by
  rw [shownImages]
  by_cases h : m.role = .tool
  · rw [messageSpec, if_pos h, if_pos h]
    rfl
  · rw [if_neg h, payloads, elements_messageSpec h, ← imageData_eq, List.filterMap_map]
    exact List.filterMap_some

end Ollama

namespace OpenAi

/-- What a service reads in a block: the address of an image. -/
def address? (block : Json) : Option String := ((block.member "image_url").member "url").str?

/-- What a service reads in a message. -/
def addresses (message : Json) : List String := (elements message "content").filterMap address?

theorem address?_toJson (b : Block) : address? b.toJson = b.image?.map (·.url) := by
  cases b with
  | text t => rfl
  | image i =>
    obtain ⟨url, detail?⟩ := i
    cases detail? <;> rfl

theorem member_messageSpec (m : Message) : (messageSpec m).member "content" =
    if (m.role = .assistant && m.hasToolCalls) && m.content.isEmpty then .null
    else m.content.toJson := by
  rw [messageSpec, Json.member_object, List.reverse_append, Json.lookup_member?_of_ne (by decide)]
  cases m.role = .assistant && m.hasToolCalls <;> rfl

theorem addresses_messageSpec (m : Message) :
    addresses (messageSpec m) = m.content.images.map (·.url) := by
  rw [addresses, elements, member_messageSpec]
  -- an assistant that only calls tools is sent without a body
  split
  · next hempty =>
    obtain ⟨-, hempty⟩ := Bool.and_eq_true_iff.mp hempty
    cases hcontent : m.content with
    | plain t => rfl
    | blocks bs =>
      rw [hcontent, Content.isEmpty, List.isEmpty_iff] at hempty
      rw [hempty]
      rfl
  · cases m.content with
    | plain t => rfl
    | blocks bs =>
      show (bs.map Block.toJson).filterMap address? = (bs.filterMap Block.image?).map (·.url)
      rw [List.filterMap_map, List.map_filterMap]
      exact List.filterMap_congr fun b _ => address?_toJson b

end OpenAi

/-! ### All formats -/

/-- **Images arrive as they were given.**  An address that is made of a payload and a type carries
them exactly when there is no comma in the type, and an address that carries a type and a payload is
the one that is made of them.  So just one thing can come of an image that its address carries: that
type and that payload.

This is what a service reads in the Anthropic and the Gemini format, for the images of all messages
behind the leading ones of the system, in order; and in the Ollama format, for the images of each
message, as far as it is a payload.  In the OpenAI format it reads the addresses. -/
theorem inline_images_arrive :
    (∀ data mimeType : String,
      (Image.ofData data mimeType).inline? = some ⟨mimeType, data⟩ ↔ ',' ∉ mimeType.toList) ∧
    (∀ (image : Image) (data mimeType : String), image.inline? = some ⟨mimeType, data⟩ →
      (Image.ofData data mimeType).url = image.url) ∧
    (∀ (image : Image) (inline : InlineImage) (p : Picture), image.inline? = some inline →
      (Shows image p ↔ p = .carried inline)) ∧
    ∀ history : List Message,
      List.Forall₂ Shows ((history.dropWhile isSystem).flatMap shownImages)
        (Anthropic.pictures (Anthropic.messages history).2) ∧
      List.Forall₂ Shows ((history.dropWhile isSystem).flatMap shownImages)
        (Gemini.pictures (Gemini.messages history).2) ∧
      List.Forall₂ (fun m sent => ∃ ps, List.Forall₂ Shows (shownImages m) ps ∧
        Ollama.payloads sent = ps.filterMap Picture.payload?) history (Ollama.messages history) ∧
      List.Forall₂ (fun m sent => OpenAi.addresses sent = m.content.images.map (·.url))
        history (OpenAi.messages history) := by
  refine ⟨fun _ _ => Image.inline?_ofData_iff, fun image data mimeType h => ?_,
    fun image inline p h => ?_, fun history => ⟨?_, ?_, ?_, ?_⟩⟩
  · exact (Image.inline?_eq_some_iff.mp h).1.symm
  · rw [shows_iff, Picture.ofImage, h]
  · exact forall₂_shows_iff.mpr (Anthropic.pictures_messages history)
  · exact forall₂_shows_iff.mpr (Gemini.pictures_messages history)
  · rw [Ollama.messages, List.forall₂_map_right_iff, List.forall₂_same]
    exact fun m _ => ⟨_, forall₂_shows_iff.mpr rfl, Ollama.payloads_messageSpec m⟩
  · rw [OpenAi.messages, List.forall₂_map_right_iff, List.forall₂_same]
    exact fun m _ => OpenAi.addresses_messageSpec m

/-- A message of the user with an image whose type and payload look like parts of an address. -/
def confusingMessage : Message := Message.user.withImage "a,b;base64,c" "data:image/png;base64"

/-- They arrive in the Anthropic and the Gemini format, and the payload in the Ollama format. -/
theorem inline_images_arrive_confusing :
    (Image.ofData "a,b;base64,c" "data:image/png;base64").inline? =
        some ⟨"data:image/png;base64", "a,b;base64,c"⟩ ∧
      Anthropic.pictures (Anthropic.messages [confusingMessage]).2 =
        [.carried ⟨"data:image/png;base64", "a,b;base64,c"⟩] ∧
      Gemini.pictures (Gemini.messages [confusingMessage]).2 =
        [.carried ⟨"data:image/png;base64", "a,b;base64,c"⟩] ∧
      Ollama.payloads (Ollama.messageSpec confusingMessage) = ["a,b;base64,c"] := by
  obtain ⟨hcarries, -, hshows, hsent⟩ := inline_images_arrive
  have hinline := (hcarries "a,b;base64,c" "data:image/png;base64").mpr (by decide)
  obtain ⟨hanthropic, hgemini, hollama, -⟩ := hsent [confusingMessage]
  have hone {ps : List Picture} (h : List.Forall₂ Shows (shownImages confusingMessage) ps) :
      ps = [.carried ⟨"data:image/png;base64", "a,b;base64,c"⟩] := by
    obtain ⟨p, rest, hp, hrest, rfl⟩ := List.forall₂_cons_left_iff.mp h
    rw [List.forall₂_nil_left_iff.mp hrest, (hshows _ _ p hinline).mp hp]
  obtain ⟨ps, hps, hpayloads⟩ := (List.forall₂_cons.mp hollama).1
  refine ⟨hinline, hone hanthropic, hone hgemini, ?_⟩
  rw [hpayloads, hone hps]
  rfl

-- A type with a comma is cut there, and what is left of it goes to the payload.
example : (Image.ofData "c" "a;base64,b").inline? = some ⟨"a", "b;base64,c"⟩ := by decide +kernel

end Wire

end Parley
