import Parley.Proofs.Wire.Dialogue

/-!
# Turns in the Anthropic format

`messages_alternate`: whatever the history, the turns that the Anthropic format sends begin with the
user, alternate between the user and the assistant, and hold what the messages behind the leading
ones of the system say, in order.  Messages without entries are skipped in between, so two messages
of one side can become neighbours late; that they are still merged is `merged_dialogue`, and that
nothing gets lost on the way is `entries_dialogue`.
-/

namespace Parley.Wire

open Chat (Message)

/-! ### Alternating sides -/

/-- Where neighbours differ, the sides of one kind stand at the even places and the others
between. -/
theorem eq_iff_of_isChain {sides : List Side} {first : Side} (hchain : sides.IsChain (· ≠ ·))
    (hfirst : ∀ s ∈ sides.head?, s = first) {i : ℕ} {s : Side} (hs : sides[i]? = some s) :
    s = first ↔ i % 2 = 0 := by
  induction sides generalizing first i with
  | nil => simp at hs
  | cons s₀ rest ih =>
    obtain ⟨hne, hrest⟩ := List.isChain_cons.mp hchain
    obtain rfl : s₀ = first := hfirst s₀ rfl
    cases i with
    | zero =>
      rw [List.getElem?_cons_zero, Option.some.injEq] at hs
      simp [hs]
    | succ i =>
      rw [List.getElem?_cons_succ] at hs
      -- behind the first side the other one is first
      obtain ⟨other, hother⟩ : ∃ other : Side, ∀ x, x ≠ s₀ ↔ x = other := by
        cases s₀
        · exact ⟨.model, fun x => by cases x <;> simp⟩
        · exact ⟨.user, fun x => by cases x <;> simp⟩
      have hi : ¬ s = s₀ ↔ i % 2 = 0 := by
        rw [← ne_eq, hother]
        exact ih hrest (fun x hx => (hother x).mp (hne x hx).symm) hs
      rw [← not_iff_not, hi]
      omega

namespace Anthropic

/-! ### What is sent -/

/-- What a message says in the format, where the name in a result does not show. -/
def blocksOf (m : Message) : List Json := (entries [] m).map entry

theorem map_entries (called : List (String × String)) (m : Message) :
    (entries called m).map entry = blocksOf m := by
  unfold blocksOf entries
  cases m.role <;> rfl

theorem map_flatMap_said (called : List (String × String)) (history : List Message) :
    ((Wire.said called history).flatMap (·.entries)).map entry = history.flatMap blocksOf := by
  induction history generalizing called with
  | nil => rfl
  | cons m rest ih =>
    rw [Wire.said, List.flatMap_cons, List.map_append, ih, List.flatMap_cons]
    exact congrArg (· ++ _) (map_entries called m)

/-- The sides that speak, with the user in front who has said nothing. -/
def sidesOf (turns : List (Turn Entry)) : List Side :=
  (if opensWithUser turns then [] else [.user]) ++ turns.map (·.side)

theorem head?_sidesOf (turns : List (Turn Entry)) : (sidesOf turns).head? = some .user := by
  unfold sidesOf
  cases turns with
  | nil => rfl
  | cons t turns => cases hside : t.side <;> simp [opensWithUser, hside]

theorem isChain_sidesOf {turns : List (Turn Entry)} (h : Merged turns) :
    (sidesOf turns).IsChain (· ≠ ·) := by
  have hturns : (turns.map (·.side)).IsChain (· ≠ ·) := (List.isChain_map _).mpr h.isChain
  unfold sidesOf
  cases turns with
  | nil => exact .singleton _
  | cons t turns =>
    cases hside : t.side with
    | user => simpa [opensWithUser, hside] using hturns
    | model => simpa [opensWithUser, hside, List.isChain_cons] using hturns

/-- The roles of the turns that are sent are those of the sides that speak. -/
theorem map_role (turns : List (Turn Entry)) :
    ((if opensWithUser turns then [] else [placeholder]) ++ turns.map turn).map (·.member "role")
      = (sidesOf turns).map fun s => .str (roleOf s) := by
  have hturns : (turns.map turn).map (·.member "role")
      = (turns.map (·.side)).map fun s => .str (roleOf s) := by
    rw [List.map_map, List.map_map]
    exact List.map_congr_left fun t _ => (member_turn t).1
  rw [sidesOf, List.map_append, List.map_append, hturns]
  split <;> rfl

/-- The roles of the turns that are sent, by place. -/
theorem role_of_getElem? (history : List Message) {i : ℕ} {v : Json}
    (h : (messages history).2[i]? = some v) :
    v.member "role" = .str (if i % 2 = 0 then "user" else "assistant") := by
  have hroles : (messages history).2.map (·.member "role")
      = (sidesOf (dialogue history)).map fun s => .str (roleOf s) := by
    rw [messages_eq]
    exact map_role _
  have hrole : ((sidesOf (dialogue history)).map fun s => Json.str (roleOf s))[i]?
      = some (v.member "role") := by
    rw [← hroles, List.getElem?_map, h]
    rfl
  rw [List.getElem?_map, Option.map_eq_some_iff] at hrole
  obtain ⟨s, hs, hv⟩ := hrole
  have hfirst : ∀ s ∈ (sidesOf (dialogue history)).head?, s = .user := by
    intro s hs
    rw [head?_sidesOf] at hs
    exact (Option.some.inj hs).symm
  have heven := eq_iff_of_isChain (isChain_sidesOf (merged_dialogue history)) hfirst hs
  rw [← hv]
  cases s with
  | user => rw [if_pos (heven.mp rfl)]; rfl
  | model => rw [if_neg fun h => Side.noConfusion (heven.mpr h)]; rfl

/-- What is sent behind a placeholder, if there is one, begins with the user exactly when there is
none. -/
theorem placeholder_or (turns : List (Turn Entry)) :
    let sent := (if opensWithUser turns then [] else [placeholder]) ++ turns.map turn
    sent = turns.map turn ∧ (turns.map turn).head?.map (·.member "role") = some (.str "user") ∨
      sent = placeholder :: turns.map turn ∧ (turns.map turn = [] ∨
        (turns.map turn).head?.map (·.member "role") = some (.str "assistant")) := by
  cases turns with
  | nil => exact Or.inr ⟨rfl, Or.inl rfl⟩
  | cons t turns =>
    have hrole := (member_turn t).1
    cases hside : t.side with
    | user => exact Or.inl ⟨by simp [opensWithUser, hside], by simp [hrole, hside, roleOf]⟩
    | model =>
      exact Or.inr ⟨by simp [opensWithUser, hside], Or.inr (by simp [hrole, hside, roleOf])⟩

/-- The blocks of the turns of a dialogue: none without a block, and together those of the
messages. -/
theorem blocks_dialogue (history : List Message) :
    ∃ blocks : List (List Json),
      ((dialogue history).map turn).map (·.member "content") = blocks.map .arr ∧
      (∀ bs ∈ blocks, bs ≠ []) ∧
      blocks.flatten = (history.dropWhile isSystem).flatMap blocksOf := by
  refine ⟨(dialogue history).map (·.entries.map entry), ?_, ?_, ?_⟩
  · rw [List.map_map, List.map_map]
    exact List.map_congr_left fun t _ => (member_turn t).2
  · intro bs hbs
    obtain ⟨t, ht, rfl⟩ := List.mem_map.mp hbs
    exact List.map_eq_nil_iff.not.mpr ((merged_dialogue history).entries_ne_nil t ht)
  · rw [← map_flatMap_said [], ← entries_dialogue, List.map_flatMap, List.flatMap_def]

/-- **Alternating turns.**  The turns that are sent for a history are never none, and the user and
the assistant speak in turn, the user first.  But for the placeholder, which stands in front exactly
when the others are none or begin with the assistant, each turn holds blocks, and together these are
the blocks of the messages behind the leading ones of the system, in order.  The texts of the
leading ones that are not empty are the system text. -/
theorem messages_alternate (history : List Message) :
    (messages history).2 ≠ [] ∧
    (∀ (i : ℕ) (v : Json), (messages history).2[i]? = some v →
      v.member "role" = .str (if i % 2 = 0 then "user" else "assistant")) ∧
    (∃ (rest : List Json) (blocks : List (List Json)),
      ((messages history).2 = rest ∧ rest.head?.map (·.member "role") = some (.str "user") ∨
        (messages history).2 = placeholder :: rest ∧
          (rest = [] ∨ rest.head?.map (·.member "role") = some (.str "assistant"))) ∧
      rest.map (·.member "content") = blocks.map .arr ∧ (∀ bs ∈ blocks, bs ≠ []) ∧
      blocks.flatten = (history.dropWhile isSystem).flatMap blocksOf) ∧
    (messages history).1 =
      (let texts := ((history.takeWhile isSystem).map Message.text).filter (!·.isEmpty)
      if texts = [] then none else some (Text.join "\n\n" texts)) := by
  have hsent := placeholder_or (dialogue history)
  obtain ⟨blocks, hcontent, hne, hall⟩ := blocks_dialogue history
  refine ⟨?_, fun i v h => role_of_getElem? history h, ?_, ?_⟩
  · rw [messages_eq]
    rcases hsent with ⟨-, huser⟩ | ⟨hfront, -⟩
    · intro hnil
      rw [(List.append_eq_nil_iff.mp hnil).2] at huser
      cases huser
    · exact hfront ▸ List.cons_ne_nil _ _
  · refine ⟨(dialogue history).map turn, blocks, ?_, hcontent, hne, hall⟩
    rw [messages_eq]
    exact hsent
  · rw [messages_eq]
    unfold systemText?
    cases ((history.takeWhile isSystem).map Message.text).filter (!·.isEmpty) <;> rfl

end Anthropic

end Parley.Wire
