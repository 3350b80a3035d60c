import Mathlib.Data.List.Basic
import Parley.Chat.Message

/-!
# Messages that are built step by step

A message is built by putting texts, images and whole bodies behind its body.  Plain texts run
together with a line break between them, blocks are lined up, and a plain text becomes a block when
it meets blocks, unless it is empty.

`building_loses_nothing`: whatever the steps, the text of the message is all pieces of text, in
order and with line breaks between them, and its images are all images in order.  So it does not
show how bodies were grouped when they were put together, and an empty plain text adds nothing.

Runs of plain texts are one piece afterwards, so that the pieces of the result are not the pieces of
the steps.  What carries the proof is that they still make the same text, also with further pieces
behind them (`SameText`): then there have to be none of the one where there are none of the other.
-/

namespace Parley.Chat

variable {ps qs rs ts : List String}

/-! ### Pieces that make the same text -/

/-- Pieces make the same text, whatever follows. -/
structure SameText (ps qs : List String) : Prop where
  nil_iff : ps = [] ↔ qs = []
  join_eq : Text.join "\n" ps = Text.join "\n" qs

namespace SameText

theorem refl (ps : List String) : SameText ps ps := ⟨Iff.rfl, rfl⟩

theorem trans (h : SameText ps qs) (h' : SameText qs rs) : SameText ps rs :=
  ⟨h.nil_iff.trans h'.nil_iff, h.join_eq.trans h'.join_eq⟩

theorem append (h : SameText ps qs) (h' : SameText rs ts) : SameText (ps ++ rs) (qs ++ ts) := by
  constructor
  · rw [List.append_eq_nil_iff, List.append_eq_nil_iff, h.nil_iff, h'.nil_iff]
  · by_cases hps : ps = []
    · rw [hps, h.nil_iff.mp hps, List.nil_append, List.nil_append, h'.join_eq]
    · by_cases hrs : rs = []
      · rw [hrs, h'.nil_iff.mp hrs, List.append_nil, List.append_nil, h.join_eq]
      · have hqs : qs ≠ [] := mt h.nil_iff.mpr hps
        have hts : ts ≠ [] := mt h'.nil_iff.mpr hrs
        have hfirst : "\n".intercalate ps = "\n".intercalate qs := h.join_eq
        have hlast : "\n".intercalate rs = "\n".intercalate ts := h'.join_eq
        rw [Text.join, Text.join, String.intercalate_append_of_ne_nil hps hrs,
          String.intercalate_append_of_ne_nil hqs hts, hfirst, hlast]

end SameText

/-! ### Bodies -/

namespace Content

/-- The pieces of text in a body: a plain text that is not empty, or the texts of its blocks. -/
def pieces : Content → List String
  | .plain t => if t.isEmpty then [] else [t]
  | .blocks bs => bs.filterMap Block.text?

theorem pieces_empty : (plain "").pieces = [] := rfl

theorem pieces_plain {t : String} (h : t ≠ "") : (plain t).pieces = [t] := by
  rw [pieces, if_neg (mt String.isEmpty_iff.mp h)]

theorem text_eq_join (c : Content) : c.text = Text.join "\n" c.pieces := by
  cases c with
  | plain t =>
    rw [text, pieces]
    split
    · next hempty => rw [String.isEmpty_iff.mp hempty]; rfl
    · rw [Text.join, String.intercalate_singleton]
  | blocks bs => rfl

theorem filterMap_text?_toBlocks (c : Content) : c.toBlocks.filterMap Block.text? = c.pieces := by
  cases c with
  | plain t =>
    rw [toBlocks, pieces]
    split <;> rfl
  | blocks bs => rfl

theorem filterMap_image?_toBlocks (c : Content) : c.toBlocks.filterMap Block.image? = c.images := by
  cases c with
  | plain t =>
    rw [toBlocks, images]
    split <;> rfl
  | blocks bs => rfl

theorem empty_extend_plain (t : String) : (plain "").extend (.plain t) = .plain t := by
  have hempty : "".isEmpty = true := rfl
  rw [extend, hempty, Bool.true_or, if_pos rfl, String.empty_append]

theorem plain_extend_empty (t : String) : (plain t).extend (.plain "") = .plain t := by
  have hempty : "".isEmpty = true := rfl
  rw [extend, hempty, Bool.or_true, if_pos rfl, String.append_empty]

theorem extend_cases (a b : Content) :
    (∃ s t, a = .plain s ∧ b = .plain t) ∨ a.extend b = .blocks (a.toBlocks ++ b.toBlocks) := by
  cases a with
  | blocks as => exact Or.inr rfl
  | plain s =>
    cases b with
    | blocks bs => exact Or.inr rfl
    | plain t => exact Or.inl ⟨s, t, rfl, rfl⟩

/-- **The pieces of two bodies**, one put behind the other, are those of both or make the same
text. -/
theorem sameText_extend (a b : Content) : SameText (a.extend b).pieces (a.pieces ++ b.pieces) := by
  obtain ⟨s, t, rfl, rfl⟩ | hblocks := extend_cases a b
  · by_cases hs : s = ""
    · rw [hs, empty_extend_plain]
      exact .refl _
    · by_cases ht : t = ""
      · rw [ht, plain_extend_empty, pieces_empty, List.append_nil]
        exact .refl _
      · -- two texts become one piece, with the line break in it that would stand between them
        have hjoined : s ++ "\n" ++ t ≠ "" := by
          intro hempty
          exact ht (String.append_eq_empty_iff.mp hempty).2
        have hextend : (plain s).extend (.plain t) = .plain (s ++ "\n" ++ t) := by
          rw [extend, if_neg (by simp [hs, ht])]
        rw [hextend, pieces_plain hjoined, pieces_plain hs, pieces_plain ht]
        exact ⟨by simp, by simp [Text.join, String.append_assoc]⟩
  · rw [hblocks, pieces, List.filterMap_append, filterMap_text?_toBlocks, filterMap_text?_toBlocks]
    exact .refl _

theorem images_extend (a b : Content) : (a.extend b).images = a.images ++ b.images := by
  obtain ⟨s, t, rfl, rfl⟩ | hblocks := extend_cases a b
  · rfl
  · rw [hblocks, images, List.filterMap_append, filterMap_image?_toBlocks,
      filterMap_image?_toBlocks]

theorem text_extend (a b : Content) :
    (a.extend b).text = Text.join "\n" (a.pieces ++ b.pieces) := by
  rw [text_eq_join, (sameText_extend a b).join_eq]

/-- How bodies are grouped does not show. -/
theorem text_extend_assoc (a b c : Content) :
    ((a.extend b).extend c).text = (a.extend (b.extend c)).text := by
  have hleft := (sameText_extend a b).append (.refl c.pieces)
  have hright := (SameText.refl a.pieces).append (sameText_extend b c)
  rw [text_extend, text_extend, hleft.join_eq, hright.join_eq, List.append_assoc]

theorem images_extend_assoc (a b c : Content) :
    ((a.extend b).extend c).images = (a.extend (b.extend c)).images := by
  simp only [images_extend, List.append_assoc]

end Content

/-! ### Steps -/

/-- A step in building a message. -/
inductive Addition where
  | text (text : String)
  | image (data mimeType : String)
  | body (content : Content)

namespace Addition

/-- The body that a step puts behind that of the message. -/
def content : Addition → Content
  | .text t => .plain t
  | .image data mimeType => .blocks [.image (.ofData data mimeType)]
  | .body c => c

/-- Take a step. -/
def addTo (m : Message) : Addition → Message
  | .text t => m.withText t
  | .image data mimeType => m.withImage data mimeType
  | .body c => m.extend c

theorem addTo_eq (m : Message) (a : Addition) :
    a.addTo m = { m with content := m.content.extend a.content } := by
  cases a <;> rfl

end Addition

/-- The message after some steps. -/
def Message.build (m : Message) (additions : List Addition) : Message :=
  additions.foldl Addition.addTo m

namespace Message

theorem sameText_build (m : Message) (additions : List Addition) :
    SameText (m.build additions).content.pieces
      (m.content.pieces ++ (additions.map Addition.content).flatMap Content.pieces) := by
  induction additions generalizing m with
  | nil =>
    rw [List.map_nil, List.flatMap_nil, List.append_nil]
    exact .refl _
  | cons a additions ih =>
    have hstep : (a.addTo m).content = m.content.extend a.content := by rw [Addition.addTo_eq]
    have hrest := ih (a.addTo m)
    rw [hstep] at hrest
    rw [List.map_cons, List.flatMap_cons, ← List.append_assoc]
    exact hrest.trans ((Content.sameText_extend _ _).append (.refl _))

theorem images_build (m : Message) (additions : List Addition) :
    (m.build additions).content.images =
    m.content.images ++ (additions.map Addition.content).flatMap Content.images := by
  induction additions generalizing m with
  | nil =>
    rw [List.map_nil, List.flatMap_nil, List.append_nil]
    rfl
  | cons a additions ih =>
    have hstep : (a.addTo m).content = m.content.extend a.content := by rw [Addition.addTo_eq]
    have hrest := ih (a.addTo m)
    rw [hstep, Content.images_extend, List.append_assoc] at hrest
    rw [List.map_cons, List.flatMap_cons]
    exact hrest

theorem build_eq (m : Message) (additions : List Addition) :
    m.build additions = { m with content := (m.build additions).content } := by
  induction additions generalizing m with
  | nil => rfl
  | cons a additions ih =>
    have hrest := ih (a.addTo m)
    rw [Addition.addTo_eq] at hrest
    rw [build, List.foldl_cons, Addition.addTo_eq]
    exact hrest

end Message

/-- **Building a message loses nothing.**  Its text is all pieces of text, and its images are all
images, of its body and of what was put behind it.  So it does not show how bodies were grouped, and
an empty plain text adds nothing. -/
theorem building_loses_nothing :
    (∀ (m : Message) (additions : List Addition),
      (m.build additions).text =
        Text.join "\n" ((m.content :: additions.map Addition.content).flatMap Content.pieces) ∧
      (m.build additions).content.images =
        (m.content :: additions.map Addition.content).flatMap Content.images ∧
      m.build additions = { m with content := (m.build additions).content }) ∧
    (∀ a b c : Content, ((a.extend b).extend c).text = (a.extend (b.extend c)).text ∧
      ((a.extend b).extend c).images = (a.extend (b.extend c)).images) ∧
    ∀ c : Content, (c.extend (.plain "")).text = c.text ∧ (c.extend (.plain "")).images = c.images ∧
      ((Content.plain "").extend c).text = c.text ∧ ((Content.plain "").extend c).images =
        c.images := by
  refine ⟨fun m additions => ⟨?_, ?_, m.build_eq additions⟩,
    fun a b c => ⟨Content.text_extend_assoc a b c, Content.images_extend_assoc a b c⟩, fun c => ?_⟩
  · rw [Message.text, Content.text_eq_join, (m.sameText_build additions).join_eq, List.flatMap_cons]
  · rw [m.images_build additions, List.flatMap_cons]
  · have hpieces := c.text_eq_join
    rw [Content.text_extend, Content.text_extend, Content.images_extend, Content.images_extend,
      Content.pieces_empty, List.append_nil, List.nil_append]
    exact ⟨hpieces.symm, List.append_nil _, hpieces.symm, List.nil_append _⟩

-- Texts before an image become one block, and an empty text block stays.
example : (Message.user.build [.text "a", .text "", .text "b", .image "QQ==" "image/png",
    .body (.blocks [.text ""]), .text "c"]).content =
      .blocks [.text "a\nb", .image ⟨"data:image/png;base64,QQ==", none⟩, .text "", .text "c"] := by
  decide +kernel

end Parley.Chat
