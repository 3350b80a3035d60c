import Parley.Proofs.Chat.Arguments
import Parley.Proofs.Json.Texts
import Parley.Proofs.Wire.Ending
import Parley.Proofs.Wire.Indexed
import Parley.Proofs.Wire.Lines

/-!
# Whole and streamed replies in the Anthropic format

A whole reply lists its blocks.  In a stream a block is started and then comes in pieces, which name
its index, and the pieces of different blocks may come in any order (`SentAs`, `Sends`).
`streamed_blocks_agree` says that the stream gives the text of the whole reply and calls with the
same ids, names and arguments.

The arguments are the same as values and not as text: the whole reply and a block without pieces
print the input, while pieces are kept as they came.

What the lines say is a list of events (`Tells`), of which the pieces are picked out (`pieceOf?`).
A piece is taken when it is of the kind of its block (`Fits`), and by `Indexed.lookup_collect` the
block at an index grows by the pieces for that index.
-/

namespace Parley.Wire.Anthropic

open Chat (Message ToolCall)
open Indexed (Ascending collect grown partsAt putAt)
open Partial (announcement? indexOf)

/-! ### Events -/

/-- Whether lines tell of events, each with its type, behind a line that announced a type or did
not.  A line announces the type of the next event, has nothing to do with events, or holds one. -/
inductive Tells : Option String → List String → List (String × Json) → Prop where
  | nil (announced? : Option String) : Tells announced? [] []
  | announce {announced? : Option String} {type line : String} {lines : List String}
    {events : List (String × Json)} (hline : announcement? line = some type)
    (rest : Tells (some type) lines events) : Tells announced? (line :: lines) events
  | silent {announced? : Option String} {line : String} {lines : List String}
    {events : List (String × Json)} (hline : announcement? line = none)
    (hdata : dataOf? line = none) (rest : Tells announced? lines events) :
    Tells announced? (line :: lines) events
  | event {announced? : Option String} {line data : String} {lines : List String} {event : Json}
    {events : List (String × Json)} (hdata : dataOf? line = some data)
    (hparse : Json.parse data = .ok event) (rest : Tells none lines events) :
    Tells announced? (line :: lines) ((((event.member "type").str?.or announced?).getD "",
      event) :: events)

/-! ### Pieces -/

/-- A piece of a block. -/
inductive Piece where
  /-- What the block is started with. -/
  | start (block : Json)
  /-- A piece of its text. -/
  | text (text : String)
  /-- A piece of the JSON text of its input. -/
  | json (json : String)

/-- The piece that an event holds, with the index of its block. -/
def pieceOf? (type : String) (event : Json) : Option (Nat × Piece) :=
  match type with
  | "content_block_start" => some (indexOf event, .start (event.member "content_block"))
  | "content_block_delta" =>
    let delta := event.member "delta"
    match (delta.member "type").str? with
    | some "text_delta" => some (indexOf event, .text (delta.member "text").strOrEmpty)
    | some "input_json_delta" =>
      some (indexOf event, .json (delta.member "partial_json").strOrEmpty)
    | _ => none
  | _ => none

/-- The pieces that events hold. -/
def piecesOf (events : List (String × Json)) : List (Nat × Piece) :=
  events.filterMap fun (type, event) => pieceOf? type event

/-- How a block goes on with a piece, or begins with it. -/
def grow (parts? : Option BlockParts) : Piece → BlockParts
  | .start block => .ofStart block
  | .text text =>
    match parts?.getD (.text "") with
    | .text t => .text (t ++ text)
    | parts => parts
  | .json json =>
    match parts?.getD (.text "") with
    | .toolUse id name input j => .toolUse id name input (j ++ json)
    | parts => parts

/-- Whether a piece is of the kind of its block. -/
def Fits (parts? : Option BlockParts) : Piece → Prop
  | .start _ => True
  | .text _ => ∃ t, parts?.getD (.text "") = .text t
  | .json _ => ∃ id name input j, parts? = some (.toolUse id name input j)

/-- Whether all pieces of a block fit, one behind the other. -/
def AllFit (parts? : Option BlockParts) : List Piece → Prop
  | [] => True
  | piece :: rest => Fits parts? piece ∧ AllFit (some (grow parts? piece)) rest

theorem piecesOf_cons (type : String) (event : Json) (events : List (String × Json)) :
    piecesOf ((type, event) :: events) = (pieceOf? type event).toList ++ piecesOf events := by
  cases h : pieceOf? type event <;> simp [piecesOf, h]

theorem allFit_append (parts? : Option BlockParts) (pieces more : List Piece) :
    AllFit parts? (pieces ++ more) ↔
    AllFit parts? pieces ∧ AllFit (grown grow parts? pieces) more := by
  induction pieces generalizing parts? with
  | nil => simp [AllFit, grown]
  | cons piece pieces ih =>
    rw [List.cons_append, AllFit, AllFit, ih, and_assoc]
    rfl

theorem putBlock_eq (index : Nat) (parts : BlockParts) (blocks : List (Nat × BlockParts)) :
    putBlock index parts blocks = putAt index parts blocks := by
  induction blocks with
  | nil => rfl
  | cons block blocks ih => rw [putBlock, putAt, ih]

namespace Partial

variable {p p' : Partial}

theorem takeText_of_fits {index : Nat} {text : String}
    (h : Fits (p.blocks.lookup index) (.text text)) :
    ∃ delta? p', p.takeText index text = .ok (delta?, p') ∧
      p'.blocks = collect grow p.blocks [(index, .text text)] := by
  obtain ⟨t, ht⟩ := h
  simp only [takeText, blockAt?, ht]
  refine ⟨_, _, rfl, ?_⟩
  simp only [collect, List.foldl_cons, List.foldl_nil, grow, ht, putBlock_eq]

theorem takeJson_of_fits {index : Nat} {piece : String}
    (h : Fits (p.blocks.lookup index) (.json piece)) :
    ∃ delta? p', p.takeJson index piece = .ok (delta?, p') ∧
      p'.blocks = collect grow p.blocks [(index, .json piece)] := by
  obtain ⟨id, name, input, j, hj⟩ := h
  simp only [takeJson, blockAt?, hj]
  refine ⟨_, _, rfl, ?_⟩
  simp only [collect, List.foldl_cons, List.foldl_nil, grow, hj, putBlock_eq, Option.getD_some]

/-- An event is taken when the piece that it holds fits, and only that piece changes the blocks. -/
theorem takeEvent_of_fits {type : String} {event : Json} (herror : type ≠ "error")
    (hfits : ∀ index piece, pieceOf? type event = some (index, piece) →
      Fits (p.blocks.lookup index) piece) :
    ∃ delta? p', p.takeEvent type event = .ok (delta?, p') ∧
      p'.blocks = collect grow p.blocks (pieceOf? type event).toList := by
  unfold takeEvent
  split
  · exact ⟨_, _, rfl, rfl⟩
  · refine ⟨_, _, rfl, ?_⟩
    simp [pieceOf?, collect, grow, putBlock_eq]
  · dsimp only
    split
    · rename_i htype
      have hpiece : pieceOf? "content_block_delta" event
          = some (indexOf event, .text ((event.member "delta").member "text").strOrEmpty) := by
        simp [pieceOf?, htype]
      rw [hpiece]
      exact takeText_of_fits (hfits _ _ hpiece)
    · rename_i htype
      have hpiece : pieceOf? "content_block_delta" event
          = some (indexOf event,
              .json ((event.member "delta").member "partial_json").strOrEmpty) := by
        simp [pieceOf?, htype]
      rw [hpiece]
      exact takeJson_of_fits (hfits _ _ hpiece)
    · rename_i htext hjson
      have hpiece : pieceOf? "content_block_delta" event = none := by
        simp only [pieceOf?]
      exact ⟨_, _, rfl, by rw [hpiece]; rfl⟩
  · exact ⟨_, _, rfl, rfl⟩
  · exact ⟨_, _, rfl, rfl⟩
  · exact absurd rfl herror
  · have hpiece : pieceOf? type event = none := by
      simp only [pieceOf?]
    exact ⟨_, _, rfl, by rw [hpiece]; rfl⟩

end Partial

/-- A line announces the type of the next event and does nothing else. -/
theorem feed_announce (p : Partial) {line type : String} (hline : announcement? line = some type) :
    assembly.feed p line = .ok (none, { p with announced? := some type }) := by
  rw [assembly_feed, Partial.feed, hline]

theorem feed_silent (p : Partial) {line : String} (hline : announcement? line = none)
    (hdata : dataOf? line = none) : assembly.feed p line = .ok (none, p) := by
  simp only [assembly_feed, Partial.feed, hline, hdata]

theorem feed_event (p : Partial) {line data : String} {event : Json}
    (hdata : dataOf? line = some data) (hparse : Json.parse data = .ok event) :
    assembly.feed p line = { p with announced? := none }.takeEvent
      (((event.member "type").str?.or p.announced?).getD "") event := by
  simp only [assembly_feed, Partial.feed, announcement?_eq_none hdata, hdata, hparse]

/-- Pieces that fit, and wherever other pieces stand between them, are all taken. -/
theorem feedAll_of_tells {announced? : Option String} {lines : List String}
    {events : List (String × Json)} (htells : Tells announced? lines events) {p : Partial}
    (hannounced : p.announced? = announced?)
    (hfits : ∀ i, AllFit (p.blocks.lookup i) (partsAt i (piecesOf events)))
    (herror : ∀ e ∈ events, e.1 ≠ "error") :
    ∃ p', assembly.feedAll p lines = .ok p' ∧ p'.blocks = collect grow p.blocks (piecesOf events) ∧
      (p'.isDone = true ↔ p.isDone = true ∨ ∃ e ∈ events, e.1 = "message_stop") := by
  induction htells generalizing p with
  | nil => exact ⟨p, rfl, rfl, by simp⟩
  | @announce _ type line lines events hline _ ih =>
    obtain ⟨p', hfeed, hblocks, hdone⟩ :=
      ih (p := { p with announced? := some type }) rfl hfits herror
    exact ⟨p', (Assembly.feedAll_cons (feed_announce p hline) lines).trans hfeed, hblocks, hdone⟩
  | silent hline hdata _ ih =>
    obtain ⟨p', hfeed, hblocks, hdone⟩ := ih hannounced hfits herror
    exact ⟨p', (Assembly.feedAll_cons (feed_silent p hline hdata) _).trans hfeed, hblocks, hdone⟩
  | @event announced? line data lines event events hdata hparse _ ih =>
    subst hannounced
    obtain ⟨hfirst, hrest⟩ := List.forall_mem_cons.mp herror
    set type := ((event.member "type").str?.or p.announced?).getD "" with htype
    rw [piecesOf_cons] at hfits ⊢
    have hpiece : ∀ index piece, pieceOf? type event = some (index, piece) →
        Fits (p.blocks.lookup index) piece := by
      intro index piece hsome
      have hindex := hfits index
      rw [hsome, Option.toList_some, List.singleton_append, Indexed.partsAt_cons_self] at hindex
      exact hindex.1
    obtain ⟨delta?, q, htake, hq⟩ := Partial.takeEvent_of_fits
      (p := { p with announced? := none }) hfirst hpiece
    obtain ⟨hqdone, hqannounced⟩ := Partial.takeEvent_eq htake
    -- what came for an index before is behind the block that has grown of it
    have hqfits : ∀ i, AllFit (q.blocks.lookup i) (partsAt i (piecesOf events)) := by
      intro i
      rw [hq, Indexed.lookup_collect]
      have hi := hfits i
      rw [Indexed.partsAt_append, allFit_append] at hi
      exact hi.2
    obtain ⟨p', hfeed, hblocks, hdone⟩ := ih hqannounced hqfits hrest
    have hline : assembly.feed p line = .ok (delta?, q) := (feed_event p hdata hparse).trans htake
    refine ⟨p', (Assembly.feedAll_cons hline lines).trans hfeed, ?_, ?_⟩
    · rw [hblocks, hq, Indexed.collect_append]
    · rw [hdone, hqdone, List.exists_mem_cons_iff, or_assoc]

/-! ### Blocks that are sent -/

/-- Whether a block is a text. -/
structure IsText (block : Json) (text : String) : Prop where
  type : (block.member "type").str? = some "text"
  text : (block.member "text").str? = some text

/-- Whether a block is a tool call. -/
structure IsCall (block : Json) (id name : String) (input : Json) : Prop where
  type : (block.member "type").str? = some "tool_use"
  id : (block.member "id").str? = some id
  name : (block.member "name").str? = some name
  input : block.member "input" = input

/-- Whether pieces send a block.  A text comes in pieces behind an empty start.  The input of a call
comes as pieces of a JSON text for it, or it stands in the start and nothing comes behind that but
blanks. -/
inductive SentAs : Json → List Piece → Prop where
  | text {block start : Json} {texts : List String} (hblock : IsText block (String.join texts))
    (hstart : IsText start "") : SentAs block (.start start :: texts.map .text)
  | json {block start input : Json} {id name : String} {members : List (String × Json)}
    {jsons : List String} (hblock : IsCall block id name (.obj members))
    (hstart : IsCall start id name input)
    (hparse : Json.parse (String.join jsons) = .ok (.obj members)) :
    SentAs block (.start start :: jsons.map .json)
  | whole {block start : Json} {id name : String} {members : List (String × Json)}
    {jsons : List String} (hblock : IsCall block id name (.obj members))
    (hstart : IsCall start id name (.obj members))
    (hblank : Text.allBlank (String.join jsons) = true) :
    SentAs block (.start start :: jsons.map .json)

/-- Whether events send a list of blocks and then the end mark. -/
structure Sends (events : List (String × Json)) (blocks : List Json) : Prop where
  /-- Each block is sent, wherever pieces of others stand between its own. -/
  block : ∀ (i : Nat) (h : i < blocks.length), SentAs blocks[i] (partsAt i (piecesOf events))
  /-- There are no other blocks. -/
  others : ∀ i, blocks.length ≤ i → partsAt i (piecesOf events) = []
  /-- No error is reported. -/
  noError : ∀ e ∈ events, e.1 ≠ "error"
  /-- The end mark comes. -/
  stop : ∃ e ∈ events, e.1 = "message_stop"

/-- What a call means to the one who runs it. -/
def reading (call : ToolCall) : String × String × Except Chat.ToolError Chat.Arguments :=
  (call.id, call.name, call.parseArguments)

/-- Whether what has come of a block is what the whole reply gives for it. -/
structure Shows (parts : BlockParts) (block : Json) : Prop where
  text : parts.textPart = blockText block
  call : parts.call?.map reading = (blockCall? block).map reading

theorem grown_texts (t : String) (texts : List String) :
    AllFit (some (.text t)) (texts.map .text) ∧
      grown grow (some (.text t)) (texts.map .text) = some (.text (t ++ String.join texts)) := by
  induction texts generalizing t with
  | nil => exact ⟨trivial, by simp [grown]⟩
  | cons text texts ih =>
    obtain ⟨hfits, hgrown⟩ := ih (t ++ text)
    refine ⟨⟨⟨t, rfl⟩, hfits⟩, ?_⟩
    rw [String.join_cons, ← String.append_assoc, ← hgrown]
    rfl

theorem grown_jsons (id name : String) (input : Json) (j : String) (jsons : List String) :
    AllFit (some (.toolUse id name input j)) (jsons.map .json) ∧
      grown grow (some (.toolUse id name input j)) (jsons.map .json)
        = some (.toolUse id name input (j ++ String.join jsons)) := by
  induction jsons generalizing j with
  | nil => exact ⟨trivial, by simp [grown]⟩
  | cons json jsons ih =>
    obtain ⟨hfits, hgrown⟩ := ih (j ++ json)
    refine ⟨⟨⟨id, name, input, j, rfl⟩, hfits⟩, ?_⟩
    rw [String.join_cons, ← String.append_assoc, ← hgrown]
    rfl

theorem IsText.ofStart_eq {block : Json} {text : String} (h : IsText block text) :
    BlockParts.ofStart block = .text text := by
  rw [BlockParts.ofStart, h.type, if_neg (by decide), Json.strOrEmpty, h.text, Option.getD_some]

theorem IsCall.ofStart_eq {block input : Json} {id name : String} (h : IsCall block id name input) :
    BlockParts.ofStart block = .toolUse id name input "" := by
  rw [BlockParts.ofStart, h.type, if_pos rfl, Json.strOrEmpty, h.id, Json.strOrEmpty,
    h.name, h.input, Option.getD_some, Option.getD_some]

theorem IsText.shows {block : Json} {text : String} (h : IsText block text) :
    Shows (.text text) block where
  text := by rw [blockText, h.type, if_pos rfl, Json.strOrEmpty, h.text, Option.getD_some]; rfl
  call := by rw [blockCall?, h.type, if_neg (by decide)]; rfl

theorem IsCall.shows {block input : Json} {id name json : String} {members : List (String × Json)}
    (h : IsCall block id name (.obj members))
    (hprint : Json.parse (Json.obj members).print = .ok (.obj members))
    (hinput : if Text.allBlank json then input = .obj members
      else Json.parse json = .ok (.obj members)) :
    Shows (.toolUse id name input json) block where
  text := by rw [blockText, h.type, if_neg (by decide)]; rfl
  call := by
    have hblock : blockCall? block = some ⟨id, name, (Json.obj members).print⟩ := by
      rw [blockCall?, h.type, if_pos rfl, Json.strOrEmpty, h.id, Json.strOrEmpty, h.name, h.input]
      rfl
    have hparts : Json.parse (if Text.allBlank json then inputText input else json) =
        .ok (.obj members) := by
      split_ifs at hinput ⊢ with hblank
      · rw [hinput]
        exact hprint
      · exact hinput
    rw [hblock, BlockParts.call?, Option.map_some, Option.map_some, reading, reading,
      ToolCall.parseArguments_of_parse hparts, ToolCall.parseArguments_of_parse hprint]

theorem shows_jsons {block start input : Json} {id name : String} {members : List (String × Json)}
    {jsons : List String} (hblock : IsCall block id name (.obj members))
    (hstart : IsCall start id name input)
    (hprint : Json.parse (Json.obj members).print = .ok (.obj members))
    (hinput : if Text.allBlank (String.join jsons) then input = .obj members
      else Json.parse (String.join jsons) = .ok (.obj members)) :
    AllFit none (.start start :: jsons.map .json) ∧
      ∃ parts, grown grow none (.start start :: jsons.map .json) = some parts ∧
      Shows parts block := by
  obtain ⟨hfits, hgrown⟩ := grown_jsons id name input "" jsons
  rw [← hstart.ofStart_eq] at hfits hgrown
  rw [String.empty_append] at hgrown
  exact ⟨⟨trivial, hfits⟩, _, hgrown, hblock.shows hprint hinput⟩

theorem SentAs.shows {block : Json} {pieces : List Piece} (h : SentAs block pieces)
    (hprint : ∀ members, block.member "input" = .obj members →
      Json.parse (Json.obj members).print = .ok (.obj members)) :
    AllFit none pieces ∧ ∃ parts, grown grow none pieces = some parts ∧ Shows parts block := by
  cases h with
  | @text start texts hblock hstart =>
    obtain ⟨hfits, hgrown⟩ := grown_texts "" texts
    rw [← hstart.ofStart_eq] at hfits hgrown
    rw [String.empty_append] at hgrown
    exact ⟨⟨trivial, hfits⟩, _, hgrown, hblock.shows⟩
  | json hblock hstart hparse =>
    refine shows_jsons hblock hstart (hprint _ hblock.input) ?_
    rw [if_neg (Bool.eq_false_iff.mp (Json.allBlank_eq_false_of_parse hparse))]
    exact hparse
  | whole hblock hstart hblank =>
    refine shows_jsons hblock hstart (hprint _ hblock.input) ?_
    rw [if_pos hblank]

/-- **Agreement.**  When a stream sends the blocks of a reply, in whatever pieces and with the
pieces of different blocks in any order, its answer has the text of the reply and the same calls in
the same order: they have the same ids and names, and their arguments are read as the same
values. -/
theorem streamed_blocks_agree {lines : List String} {events : List (String × Json)} {reply : Json}
    {blocks : List Json} (hreply : reply.get? "content" = some (.arr blocks))
    (htells : Tells none lines events) (hsends : Sends events blocks)
    (hprint : ∀ block ∈ blocks, ∀ members, block.member "input" = .obj members →
      Json.parse (Json.obj members).print = .ok (.obj members)) :
    ∃ completion whole, assembly.answer lines = .ok completion ∧ message reply = .ok whole ∧
      completion.message.content = whole.content ∧
      completion.message.toolCalls.map reading = whole.toolCalls.map reading := by
  have hshows (i : Nat) (hi : i < blocks.length) :
      AllFit none (partsAt i (piecesOf events)) ∧
        ∃ parts, grown grow none (partsAt i (piecesOf events)) = some parts ∧
        Shows parts blocks[i] :=
    (hsends.block i hi).shows (hprint _ (List.getElem_mem hi))
  have hfits : ∀ i, AllFit none (partsAt i (piecesOf events)) := by
    intro i
    by_cases hi : i < blocks.length
    · exact (hshows i hi).1
    · rw [hsends.others i (Nat.le_of_not_lt hi)]
      trivial
  obtain ⟨p, hfeed, hblocks, hdone⟩ :=
    feedAll_of_tells htells (p := assembly.start) rfl hfits hsends.noError
  have hfinish : assembly.answer lines = p.finish := Assembly.answer_of_feedAll hfeed
  have hstop : p.isDone = true := hdone.mpr (Or.inr hsends.stop)
  rw [Partial.finish, if_pos hstop] at hfinish
  have hwhole : message reply = .ok (messageOf blocks) := by
    simp only [message, hreply, Option.bind_some, Json.items?]
  -- the block at each place of the list
  let parts (i : Nat) : BlockParts :=
    (grown grow none (partsAt i (piecesOf events))).getD (.text "")
  have hparts (i : Nat) (hi : i < blocks.length) :
      grown grow none (partsAt i (piecesOf events)) = some (parts i) ∧
      Shows (parts i) blocks[i] := by
    obtain ⟨-, b, hb, hshows⟩ := hshows i hi
    have hpart : parts i = b := by simp only [parts, hb, Option.getD_some]
    rw [hpart]
    exact ⟨hb, hshows⟩
  -- every place of the list has its block, and there is no other
  have hentries : p.blocks = (List.range blocks.length).map fun i => (i, parts i) := by
    rw [hblocks]
    refine Indexed.eq_map_range (Indexed.ascending_nil.collect _ _) fun i => ?_
    rw [Indexed.lookup_collect]
    split_ifs with hi
    · exact (hparts i hi).1
    · rw [hsends.others i (Nat.le_of_not_lt hi)]
      rfl
  have htexts : (List.range blocks.length).map (fun i => (parts i).textPart) =
      blocks.map blockText := by
    refine List.ext_getElem (by simp) fun i hi hi' => ?_
    rw [List.length_map] at hi'
    simp [(hparts i hi').2.text]
  have hcalls : (List.range blocks.length).map (fun i => (parts i).call?.map reading)
      = blocks.map fun block => (blockCall? block).map reading := by
    refine List.ext_getElem (by simp) fun i hi hi' => ?_
    rw [List.length_map] at hi'
    simp [(hparts i hi').2.call]
  refine ⟨_, _, hfinish, hwhole, ?_, ?_⟩
  · show Chat.Content.plain (String.join (p.blocks.map (·.2.textPart))) = _
    rw [hentries, List.map_map, messageOf, ← htexts]
    rfl
  · show (p.blocks.filterMap (·.2.call?)).map reading = (blocks.filterMap blockCall?).map reading
    calc (p.blocks.filterMap (·.2.call?)).map reading
        = ((List.range blocks.length).map fun i => (parts i).call?.map reading).filterMap id := by
          rw [hentries, List.filterMap_map, List.map_filterMap, List.filterMap_map]
          rfl
      _ = (blocks.map fun block => (blockCall? block).map reading).filterMap id := by rw [hcalls]
      _ = (blocks.filterMap blockCall?).map reading := by
          rw [List.filterMap_map, List.map_filterMap]
          rfl

def textBlock (text : String) : Json := .obj [("text", .str text), ("type", .str "text")]

def callBlock (members : List (String × Json)) : Json :=
  .obj [("id", .str "c1"), ("input", .obj members), ("name", .str "ls"), ("type", .str "tool_use")]

def startEvent (index : Nat) (block : Json) : Json :=
  .obj [("content_block", block), ("index", .nat index), ("type", .str "content_block_start")]

def textEvent (index : Nat) (text : String) : Json :=
  .obj [("delta", .obj [("text", .str text), ("type", .str "text_delta")]), ("index", .nat index)]

def jsonEvent (index : Nat) (json : String) : Json :=
  .obj [("delta", .obj [("partial_json", .str json), ("type", .str "input_json_delta")]),
    ("index", .nat index), ("type", .str "content_block_delta")]

theorem Tells.dataLine {announced? : Option String} {members : List (String × Json)}
    {lines : List String} {events : List (String × Json)}
    (hparse : Json.parseChars (Json.obj members).chars = .ok (.obj members))
    (rest : Tells none lines events) :
    Tells announced? (dataLine (.obj members) :: lines)
      (((((Json.obj members).member "type").str?.or announced?).getD "", .obj members) :: events) :=
  .event (dataOf?_dataLine members) (Json.parse_print hparse) rest

/-- The lines of two blocks whose pieces stand between each other. -/
def twoBlocks : List String :=
  [dataLine (startEvent 1 (callBlock [])), dataLine (startEvent 0 (textBlock "")),
    dataLine (jsonEvent 1 "\x7b\"p\":"), "event: content_block_delta", dataLine (textEvent 0 "hi"),
    "", dataLine (jsonEvent 1 "1\x7d"), "event: message_stop", dataLine (.obj [])]

def twoBlocksReply : Json :=
  .obj [("content", .arr [textBlock "hi", callBlock [("p", .nat 1)]])]

def twoBlocksEvents : List (String × Json) :=
  [("content_block_start", startEvent 1 (callBlock [])),
    ("content_block_start", startEvent 0 (textBlock "")),
    ("content_block_delta", jsonEvent 1 "\x7b\"p\":"), ("content_block_delta", textEvent 0 "hi"),
    ("content_block_delta", jsonEvent 1 "1\x7d"), ("message_stop", .obj [])]

theorem streamed_blocks_agree_twoBlocks :
    twoBlocksReply.get? "content" = some (.arr [textBlock "hi", callBlock [("p", .nat 1)]]) ∧
      Tells none twoBlocks twoBlocksEvents ∧
      Sends twoBlocksEvents [textBlock "hi", callBlock [("p", .nat 1)]] ∧
      (∀ block ∈ [textBlock "hi", callBlock [("p", .nat 1)]], ∀ members,
        block.member "input" = .obj members →
        Json.parse (Json.obj members).print = .ok (.obj members)) ∧
      ∃ completion whole, assembly.answer twoBlocks = .ok completion ∧
        message twoBlocksReply = .ok whole ∧
        completion.message.content = whole.content ∧
        completion.message.toolCalls.map reading = whole.toolCalls.map reading := by
  have htells : Tells none twoBlocks twoBlocksEvents := by
    refine .dataLine (by decide +kernel)
      (.dataLine (by decide +kernel) (.dataLine (by decide +kernel) ?_))
    refine .announce (by decide)
      (.dataLine (by decide +kernel) (.silent (by decide) (by decide) ?_))
    exact .dataLine (by decide +kernel)
      (.announce (by decide) (.dataLine (by decide +kernel) (.nil none)))
  have hpieces : piecesOf twoBlocksEvents =
      [(1, .start (callBlock [])), (0, .start (textBlock "")), (1, .json "\x7b\"p\":"),
        (0, .text "hi"), (1, .json "1\x7d")] := rfl
  have hsends : Sends twoBlocksEvents [textBlock "hi", callBlock [("p", .nat 1)]] := by
    refine ⟨fun i hi => ?_, fun i hi => ?_, by decide,
      ⟨("message_stop", .obj []), by simp [twoBlocksEvents], rfl⟩⟩
    · rw [hpieces]
      match i, hi with
      | 0, _ =>
        have htext : SentAs (textBlock "hi") (.start (textBlock "") :: ["hi"].map .text) :=
          .text ⟨rfl, rfl⟩ ⟨rfl, rfl⟩
        exact htext
      | 1, _ =>
        have hcall : SentAs (callBlock [("p", .nat 1)])
            (.start (callBlock []) :: ["\x7b\"p\":", "1\x7d"].map .json) :=
          .json ⟨rfl, rfl, rfl, rfl⟩ ⟨rfl, rfl, rfl, rfl⟩ (by decide +kernel)
        exact hcall
    · have htwo : 2 ≤ i := hi
      have hzero : 0 ≠ i := by omega
      have hone : 1 ≠ i := by omega
      rw [hpieces]
      simp [partsAt, hzero, hone]
  have hprint : ∀ block ∈ [textBlock "hi", callBlock [("p", .nat 1)]], ∀ members,
      block.member "input" = .obj members →
      Json.parse (Json.obj members).print = .ok (.obj members) := by
    intro block hblock members hinput
    simp only [List.mem_cons, List.not_mem_nil, or_false] at hblock
    rcases hblock with rfl | rfl
    · cases hinput
    · cases hinput
      exact Json.parse_print (by decide +kernel)
  exact ⟨rfl, htells, hsends, hprint, streamed_blocks_agree rfl htells hsends hprint⟩

end Parley.Wire.Anthropic
