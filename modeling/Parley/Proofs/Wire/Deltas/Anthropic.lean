import Parley.Proofs.Wire.Agreement.Anthropic
import Parley.Proofs.Wire.Deltas

/-!
# Pieces of text in the Anthropic format

The pieces of text of a stream are shown as they come, and the message has the texts of the blocks
in the order of their indices.  The two are the same when the pieces are `Orderly`: a block is
started before anything else comes of it, and without text, and the text comes in the order of the
indices.

`eventsOf` says which events the lines of a body hold, up to the end of the stream.
-/

namespace Parley.Wire.Anthropic

open Indexed (Ascending collect putAt)
open Partial (announcement? indexOf)

/-! ### Events -/

/-- The events that the lines of a body hold, each with its type, behind a line that announced a
type or did not.  There are none behind the end mark, and none behind a failure. -/
def eventsOf (announced? : Option String) : List (Except Failure String) → List (String × Json)
  | [] => []
  | .error _ :: _ => []
  | .ok line :: rest =>
    match announcement? line with
    | some type => eventsOf (some type) rest
    | none =>
      match dataOf? line with
      | none => eventsOf announced? rest
      | some data =>
        match Json.parse data with
        | .error _ => []
        | .ok event =>
          let type := ((event.member "type").str?.or announced?).getD ""
          (type, event) :: if type = "message_stop" then [] else eventsOf none rest

section Lines

variable {announced? : Option String} {line type data : String} {event : Json}
  (rest : List (Except Failure String))

theorem eventsOf_announce (hline : announcement? line = some type) :
    eventsOf announced? (.ok line :: rest) = eventsOf (some type) rest := by
  simp only [eventsOf, hline]

theorem eventsOf_silent (hline : announcement? line = none) (hdata : dataOf? line = none) :
    eventsOf announced? (.ok line :: rest) = eventsOf announced? rest := by
  simp only [eventsOf, hline, hdata]

theorem eventsOf_event (hdata : dataOf? line = some data) (hparse : Json.parse data = .ok event)
    (htype : ((event.member "type").str?.or announced?).getD "" = type) :
    eventsOf announced? (.ok line :: rest) =
      (type, event) :: if type = "message_stop" then [] else eventsOf none rest := by
  subst htype
  simp only [eventsOf, announcement?_eq_none hdata, hdata, hparse]

end Lines

/-- The events are those that the lines tell of, when none but the last one ends the stream. -/
theorem eventsOf_of_tells {announced? : Option String} {lines : List String}
    {events : List (String × Json)} (h : Tells announced? lines events)
    (hstop : ∀ e ∈ events.dropLast, e.1 ≠ "message_stop") :
    eventsOf announced? (lines.map .ok) = events := by
  induction h with
  | nil => rfl
  | announce hline _ ih => exact (eventsOf_announce _ hline).trans (ih hstop)
  | silent hline hdata _ ih => exact (eventsOf_silent _ hline hdata).trans (ih hstop)
  | @event announced? line data lines event events hdata hparse _ ih =>
    rw [List.map_cons, eventsOf_event _ hdata hparse rfl]
    cases events with
    | nil =>
      rw [ih nofun]
      exact congrArg _ (ite_self _)
    | cons e events =>
      obtain ⟨hfirst, hrest⟩ := List.forall_mem_cons.mp hstop
      rw [if_neg hfirst, ih hrest]

/-! ### Pieces in order -/

/-- Whether pieces of blocks come in order. -/
structure Orderly (pieces : List (Nat × Piece)) : Prop where
  /-- A block is started once at most, and nothing comes of it before. -/
  started : pieces.Pairwise fun earlier later => ∀ block, later.2 = .start block →
    earlier.1 ≠ later.1
  /-- No block is started with a text. -/
  empty : ∀ i block, (i, .start block) ∈ pieces → (BlockParts.ofStart block).textPart = ""
  /-- The text comes in the order of the indices. -/
  ascending : pieces.Pairwise fun earlier later =>
    ∀ text text', earlier.2 = .text text → later.2 = .text text' → earlier.1 ≤ later.1

theorem Orderly.tail {piece : Nat × Piece} {pieces : List (Nat × Piece)}
    (h : Orderly (piece :: pieces)) :
    Orderly pieces where
  started := h.started.of_cons
  empty i block hmem := h.empty i block (List.mem_cons_of_mem _ hmem)
  ascending := h.ascending.of_cons

/-! ### The text of blocks -/

/-- The text of blocks, in their order. -/
def textOf (blocks : List (Nat × BlockParts)) : String := String.join (blocks.map (·.2.textPart))

theorem textOf_cons (i : Nat) (parts : BlockParts) (blocks : List (Nat × BlockParts)) :
    textOf ((i, parts) :: blocks) = parts.textPart ++ textOf blocks := by
  rw [textOf, List.map_cons, String.join_cons, textOf]

theorem textOf_eq_empty {blocks : List (Nat × BlockParts)} (h : ∀ b ∈ blocks, b.2.textPart = "") :
    textOf blocks = "" := by
  induction blocks with
  | nil => rfl
  | cons b blocks ih =>
    obtain ⟨hfirst, hrest⟩ := List.forall_mem_cons.mp h
    rw [textOf_cons, hfirst, ih hrest, String.empty_append]

/-- What is added to a block comes at the end of the text when no later block has any. -/
theorem textOf_putAt {blocks : List (Nat × BlockParts)} (h : Ascending blocks) {i : Nat}
    {parts : BlockParts} {added : String}
    (hparts : parts.textPart = ((blocks.lookup i).map (·.textPart)).getD "" ++ added)
    (hlater : added ≠ "" → ∀ b ∈ blocks, i < b.1 → b.2.textPart = "") :
    textOf (putAt i parts blocks) = textOf blocks ++ added := by
  -- what comes behind the place of the block does not matter
  have hbehind {later : List (Nat × BlockParts)} (hmem : ∀ b ∈ later, b ∈ blocks ∧ i < b.1) :
      added ++ textOf later = textOf later ++ added := by
    by_cases hadded : added = ""
    · rw [hadded, String.empty_append, String.append_empty]
    · have hempty : textOf later = "" :=
        textOf_eq_empty fun b hb => hlater hadded b (hmem b hb).1 (hmem b hb).2
      rw [hempty, String.empty_append, String.append_empty]
  induction blocks with
  | nil =>
    have htext : parts.textPart = added := hparts.trans (String.empty_append ..)
    rw [putAt, textOf_cons, htext]
    exact hbehind fun b hb => absurd hb List.not_mem_nil
  | cons b blocks ih =>
    obtain ⟨j, b⟩ := b
    obtain ⟨hfirst, hrest⟩ := List.pairwise_cons.mp h
    rw [putAt]
    rw [Indexed.lookup_cons] at hparts
    by_cases hlt : i < j
    · rw [if_pos hlt, textOf_cons]
      have hall : ∀ b' ∈ (j, b) :: blocks, i < b'.1 :=
        List.forall_mem_cons.mpr ⟨hlt, fun b' hb' => Nat.lt_trans hlt (hfirst b' hb')⟩
      have hnone : blocks.lookup i = none :=
        Indexed.lookup_eq_none (List.forall_mem_cons.mp hall).2
      rw [if_neg (Nat.ne_of_lt hlt), hnone] at hparts
      have htext : parts.textPart = added := hparts.trans (String.empty_append ..)
      rw [htext]
      exact hbehind fun b' hb' => ⟨hb', hall b' hb'⟩
    · rw [if_neg hlt]
      by_cases heq : i = j
      · subst heq
        rw [if_pos rfl] at hparts ⊢
        have htext : parts.textPart = b.textPart ++ added := hparts
        rw [textOf_cons, textOf_cons, htext, String.append_assoc, String.append_assoc]
        congr 1
        exact hbehind fun b' hb' => ⟨List.mem_cons_of_mem _ hb', hfirst b' hb'⟩
      · rw [if_neg heq] at hparts ⊢
        rw [textOf_cons, textOf_cons, String.append_assoc]
        congr 1
        refine ih hrest hparts ?_ ?_
        · exact fun hadded b' hb' => hlater hadded b' (List.mem_cons_of_mem _ hb')
        · exact fun hmem => hbehind fun b' hb' => ⟨List.mem_cons_of_mem _ (hmem b' hb').1,
            (hmem b' hb').2⟩

/-! ### Taking an event -/

/-- The text that a piece adds to that of its block. -/
def Piece.added : Piece → String
  | .start _ => ""
  | .text t => t
  | .json _ => ""

theorem Piece.exists_eq_text {piece : Piece} (h : piece.added ≠ "") :
    ∃ text, piece = .text text := by
  cases piece with
  | start => exact absurd rfl h
  | text text => exact ⟨text, rfl⟩
  | json => exact absurd rfl h

/-- The text of a block grows by that of a piece.  No text is lost when a block is started anew, as
long as it had none, and is started with none. -/
theorem textPart_grow {parts? : Option BlockParts} {piece : Piece} (hfits : Fits parts? piece)
    (hstart : ∀ block, piece = .start block →
      parts? = none ∧ (BlockParts.ofStart block).textPart = "") :
    (grow parts? piece).textPart = (parts?.map (·.textPart)).getD "" ++ piece.added := by
  cases piece with
  | start block =>
    obtain ⟨rfl, hempty⟩ := hstart block rfl
    exact hempty
  | text text =>
    obtain ⟨t, ht⟩ := hfits
    have hold : (parts?.map (·.textPart)).getD "" = t := by
      cases parts? with
      | none =>
        cases ht
        rfl
      | some parts =>
        obtain rfl : parts = .text t := ht
        rfl
    rw [hold]
    simp only [grow, ht]
    rfl
  | json json =>
    obtain ⟨id, name, input, j, rfl⟩ := hfits
    rfl

namespace Partial

variable {p p' : Partial} {type : String} {event : Json} {delta? : Option String}

theorem takeText_eq_ok {index : Nat} {text : String}
    (h : p.takeText index text = .ok (delta?, p')) :
    Fits (p.blocks.lookup index) (.text text) ∧
      p'.blocks = putAt index (grow (p.blocks.lookup index) (.text text)) p.blocks ∧
      delta? = if text.isEmpty then none else some text := by
  unfold takeText at h
  dsimp only at h
  split at h
  · rename_i t ht
    cases h
    rw [blockAt?] at ht
    exact ⟨⟨t, ht⟩, by simp only [grow, ht, putBlock_eq], rfl⟩
  · cases h

theorem takeJson_eq_ok {index : Nat} {piece : String}
    (h : p.takeJson index piece = .ok (delta?, p')) :
    Fits (p.blocks.lookup index) (.json piece) ∧
      p'.blocks = putAt index (grow (p.blocks.lookup index) (.json piece)) p.blocks ∧
      delta? = none := by
  unfold takeJson at h
  split at h
  · rename_i id name input j hj
    cases h
    rw [blockAt?] at hj
    exact ⟨⟨id, name, input, j, hj⟩, by simp only [grow, hj, putBlock_eq, Option.getD_some], rfl⟩
  · cases h

/-- An event has no part in the blocks, or holds a piece that fits, and the text of that is
shown. -/
theorem takeEvent_eq_ok (h : p.takeEvent type event = .ok (delta?, p')) :
    (pieceOf? type event = none ∧ p'.blocks = p.blocks ∧ delta? = none) ∨
      ∃ i piece, pieceOf? type event = some (i, piece) ∧ Fits (p.blocks.lookup i) piece ∧
        p'.blocks = putAt i (grow (p.blocks.lookup i) piece) p.blocks ∧
        delta? = if piece.added.isEmpty then none else some piece.added := by
  unfold takeEvent at h
  split at h
  · cases h
    exact Or.inl ⟨rfl, rfl, rfl⟩
  · cases h
    exact Or.inr ⟨_, _, rfl, trivial, putBlock_eq .., rfl⟩
  · dsimp only at h
    split at h
    · rename_i htype
      obtain ⟨hfits, hblocks, hdelta⟩ := takeText_eq_ok h
      refine Or.inr ⟨_, _, ?_, hfits, hblocks, hdelta⟩
      simp only [pieceOf?, htype]
    · rename_i htype
      obtain ⟨hfits, hblocks, hdelta⟩ := takeJson_eq_ok h
      refine Or.inr ⟨_, _, ?_, hfits, hblocks, hdelta⟩
      simp only [pieceOf?, htype]
    · cases h
      refine Or.inl ⟨?_, rfl, rfl⟩
      simp only [pieceOf?]
  · cases h
    exact Or.inl ⟨rfl, rfl, rfl⟩
  · cases h
    exact Or.inl ⟨rfl, rfl, rfl⟩
  · cases h
  · cases h
    refine Or.inl ⟨?_, rfl, rfl⟩
    simp only [pieceOf?]

end Partial

/-! ### The text that is shown -/

/-- Whether what has come of blocks suits the pieces that are still to come. -/
structure Suits (blocks : List (Nat × BlockParts)) (pieces : List (Nat × Piece)) : Prop where
  /-- The blocks are in order. -/
  ascending : Ascending blocks
  /-- So are the pieces. -/
  orderly : Orderly pieces
  /-- Nothing has come of a block that is still to be started. -/
  fresh : ∀ i block, (i, .start block) ∈ pieces → blocks.lookup i = none
  /-- No block behind one whose text is still to come has text. -/
  behind : ∀ i text, (i, .text text) ∈ pieces → ∀ j parts, blocks.lookup j = some parts →
    parts.textPart ≠ "" → j ≤ i

theorem suits_nil {pieces : List (Nat × Piece)} (h : Orderly pieces) : Suits [] pieces :=
  ⟨Indexed.ascending_nil, h, fun _ _ _ => rfl, fun _ _ _ _ _ hnone => nomatch hnone⟩

section Take

variable {blocks : List (Nat × BlockParts)} {i : Nat} {piece : Piece} {pieces : List (Nat × Piece)}

theorem Suits.textPart_grow (h : Suits blocks ((i, piece) :: pieces))
    (hfits : Fits (blocks.lookup i) piece) :
    (grow (blocks.lookup i) piece).textPart =
      ((blocks.lookup i).map (·.textPart)).getD "" ++ piece.added := by
  apply Anthropic.textPart_grow hfits
  rintro block rfl
  exact ⟨h.fresh i block List.mem_cons_self, h.orderly.empty i block List.mem_cons_self⟩

/-- A block that has text behind a piece had some before, or gets it from the piece. -/
theorem Suits.had_or_added (h : Suits blocks ((i, piece) :: pieces))
    (hfits : Fits (blocks.lookup i) piece) {j : Nat} {parts : BlockParts}
    (hparts : (putAt i (grow (blocks.lookup i) piece) blocks).lookup j = some parts)
    (hne : parts.textPart ≠ "") :
    (∃ old, blocks.lookup j = some old ∧ old.textPart ≠ "") ∨ (j = i ∧ piece.added ≠ "") := by
  rw [Indexed.lookup_putAt] at hparts
  split_ifs at hparts with hj
  · obtain rfl := Option.some.inj hparts
    by_cases hadded : piece.added = ""
    · left
      rw [h.textPart_grow hfits, hadded, String.append_empty] at hne
      cases hold : blocks.lookup i with
      | none =>
        rw [hold] at hne
        exact absurd rfl hne
      | some old =>
        rw [hold] at hne
        exact ⟨old, hj ▸ hold, hne⟩
    · exact Or.inr ⟨hj, hadded⟩
  · exact Or.inl ⟨parts, hparts, hne⟩

/-- A piece adds its text at the end. -/
theorem Suits.textOf_take (h : Suits blocks ((i, piece) :: pieces))
    (hfits : Fits (blocks.lookup i) piece) :
    textOf (putAt i (grow (blocks.lookup i) piece) blocks) = textOf blocks ++ piece.added := by
  apply textOf_putAt h.ascending (h.textPart_grow hfits)
  intro hadded b hb hlt
  obtain ⟨text, rfl⟩ := Piece.exists_eq_text hadded
  by_contra hne
  -- a later block with text would stand behind one whose text is still to come
  have hlookup : blocks.lookup b.1 = some b.2 := (Indexed.mem_iff_lookup h.ascending).mp hb
  have hle : b.1 ≤ i := h.behind i text List.mem_cons_self b.1 b.2 hlookup hne
  omega

/-- The blocks suit what follows. -/
theorem Suits.take (h : Suits blocks ((i, piece) :: pieces))
    (hfits : Fits (blocks.lookup i) piece) :
    Suits (putAt i (grow (blocks.lookup i) piece) blocks) pieces where
  ascending := h.ascending.putAt _ _
  orderly := h.orderly.tail
  fresh := by
    intro k block hmem
    have hne : i ≠ k := (List.pairwise_cons.mp h.orderly.started).1 (k, .start block) hmem block rfl
    rw [Indexed.lookup_putAt, if_neg hne.symm]
    exact h.fresh k block (List.mem_cons_of_mem _ hmem)
  behind := by
    intro k text hmem j parts hparts hne
    rcases h.had_or_added hfits hparts hne with ⟨old, hold, holdne⟩ | ⟨rfl, hadded⟩
    · exact h.behind k text (List.mem_cons_of_mem _ hmem) j old hold holdne
    · obtain ⟨text', rfl⟩ := Piece.exists_eq_text hadded
      exact (List.pairwise_cons.mp h.orderly.ascending).1 (k, .text text) hmem text' text rfl rfl

end Take

theorem grows : assembly.Grows (fun p => textOf p.blocks)
    fun p lines => Suits p.blocks (piecesOf (eventsOf p.announced? lines)) where
  feed := by
    intro s line rest delta? s' hsuits hfeed
    rw [assembly_feed] at hfeed
    rcases Partial.feed_eq_ok hfeed with ⟨type, hline, rfl, rfl⟩ | ⟨hline, hdata, rfl, rfl⟩ |
      ⟨data, event, hdata, hevent, htake⟩
    · rw [eventsOf_announce rest hline] at hsuits
      exact ⟨.refl _, fun _ => hsuits⟩
    · rw [eventsOf_silent rest hline hdata] at hsuits
      exact ⟨.refl _, fun _ => hsuits⟩
    · rw [eventsOf_event rest hdata hevent rfl, piecesOf_cons] at hsuits
      obtain ⟨hdone, hannounced⟩ := Partial.takeEvent_eq htake
      -- while the stream goes on, the other events are those of the other lines
      have hrest (hopen : s'.isDone = false) :
          (if ((event.member "type").str?.or s.announced?).getD "" = "message_stop" then []
            else eventsOf none rest) = eventsOf s'.announced? rest := by
        rw [if_neg, hannounced]
        intro htype
        rw [hdone.mpr (Or.inr htype)] at hopen
        cases hopen
      rcases Partial.takeEvent_eq_ok htake with ⟨hnone, hblocks, rfl⟩ | ⟨i, piece, hsome, hfits,
        hblocks, rfl⟩
      · rw [hblocks]
        refine ⟨.refl _, fun hopen => ?_⟩
        rwa [hnone, hrest hopen] at hsuits
      · rw [hsome] at hsuits
        rw [hblocks, Suits.textOf_take hsuits hfits]
        refine ⟨.append _ _, fun hopen => ?_⟩
        have hnext := Suits.take hsuits hfits
        rwa [hrest hopen] at hnext
  finish := by
    intro s c (hfinish : s.finish = .ok c)
    unfold Partial.finish at hfinish
    split_ifs at hfinish
    cases hfinish
    rfl

/-- **Pieces of text.**  When the pieces of blocks come in order, the text is shown as it is in the
message. -/
theorem addsUp {lines : List (Except Failure String)}
    (h : Orderly (piecesOf (eventsOf none lines))) :
    AddsUp (assembly.chunksFrom assembly.start lines) := grows.addsUp rfl (suits_nil h)

/-- The lines of a text, a call and a text that is not started. -/
def threeBlocks : List String :=
  [dataLine (startEvent 0 (textBlock "")), "event: content_block_delta",
    dataLine (textEvent 0 "Hi "), dataLine (startEvent 1 (callBlock [])), "",
    dataLine (jsonEvent 1 "\x7b\x7d"), "event: content_block_delta", dataLine (textEvent 2 "you"),
    "event: message_stop", dataLine (.obj [])]

def threeBlocksEvents : List (String × Json) :=
  [("content_block_start", startEvent 0 (textBlock "")), ("content_block_delta", textEvent 0 "Hi "),
    ("content_block_start", startEvent 1 (callBlock [])),
    ("content_block_delta", jsonEvent 1 "\x7b\x7d"), ("content_block_delta", textEvent 2 "you"),
    ("message_stop", .obj [])]

theorem orderly_threeBlocks : Orderly (piecesOf (eventsOf none (threeBlocks.map .ok))) := by
  have htells : Tells none threeBlocks threeBlocksEvents := by
    refine .dataLine (by decide +kernel) (.announce (by decide) (.dataLine (by decide +kernel) ?_))
    refine .dataLine (by decide +kernel)
      (.silent (by decide) (by decide) (.dataLine (by decide +kernel) ?_))
    refine .announce (by decide) (.dataLine (by decide +kernel) ?_)
    exact .announce (by decide) (.dataLine (by decide +kernel) (.nil none))
  have hpieces : piecesOf threeBlocksEvents =
      [(0, .start (textBlock "")), (0, .text "Hi "), (1, .start (callBlock [])),
        (1, .json "\x7b\x7d"), (2, .text "you")] := rfl
  rw [eventsOf_of_tells htells (by decide), hpieces]
  refine ⟨by simp, ?_, by simp⟩
  intro i block hmem
  simp only [List.mem_cons, Prod.mk.injEq, Piece.start.injEq, reduceCtorEq, and_false,
    false_or, or_false, List.not_mem_nil] at hmem
  rcases hmem with ⟨-, rfl⟩ | ⟨-, rfl⟩ <;> rfl

end Parley.Wire.Anthropic
