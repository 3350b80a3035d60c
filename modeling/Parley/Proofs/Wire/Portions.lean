import Mathlib.Data.List.DropRight
import Parley.Proofs.Text.Pieces
import Parley.Wire.Assembly

/-!
# Where a body is cut

What a body comes to, line by line, is a function of its bytes and of how it ended: the bytes are
split at the line feeds, and what follows the last one is a line when the body is complete and the
rest not empty (`Body.lines_complete`, `Body.lines_broken`).  The portions it came in do not matter,
even where one of them ends inside a character or between a carriage return and a line feed.

The invariant is that of the splitter.  The pieces that have ended, followed by what is under way
with all bytes to come, are the pieces of the whole (`Splitter.closed_append_underWay`).

A line is decoded without its line feed.  To decode it with the line feed comes to the same
(`Body.decoded_append_lineFeed`), since a line feed never continues a character
(`Utf8.State.Sound`).
-/

namespace Parley

namespace Text

/-! ### A line feed in a text of bytes -/

namespace Utf8

/-- What the machine knows between two bytes: a sequence goes on with bytes beyond the first half
only. -/
def State.Sound (s : State) : Prop := ∀ q, s.sequence? = some q → 0x80 ≤ q.low

theorem Sequence.low_of_ofLead? {b : UInt8} {q : Sequence} (h : Sequence.ofLead? b = some q) :
    0x80 ≤ q.low := by
  have hlow : ∀ low ∈ [(0x80 : UInt8), 0xA0, 0x90], 0x80 ≤ low := by simp
  unfold Sequence.ofLead? at h
  split_ifs at h <;> cases h <;> exact hlow _ (by simp)

theorem State.sound_start (read : List (Option Char)) (b : UInt8) : (State.start read b).Sound := by
  unfold State.start
  split
  · intro q hq; cases hq
  · split
    next sequence hlead =>
      intro q hq
      cases hq
      exact Sequence.low_of_ofLead? hlead
    next => intro q hq; cases hq

theorem State.sound_step (s : State) (b : UInt8) : (s.step b).Sound := by
  unfold State.step
  split
  · exact State.sound_start _ b
  · split
    · dsimp only
      split
      · intro q hq; cases hq
      · intro q hq
        cases hq
        exact UInt8.le_refl 0x80
    · exact State.sound_start _ b

theorem State.sound_foldl (bytes : List UInt8) : (bytes.foldl State.step {}).Sound := by
  induction bytes using List.reverseRecOn with
  | nil => intro q hq; cases hq
  | append_singleton bytes b _ =>
    rw [List.foldl_append]
    exact State.sound_step _ b

/-- A line feed closes what is under way and stands for itself. -/
theorem State.Sound.step_lineFeed {s : State} (h : s.Sound) :
    s.step 10 = { read := some '\n' :: s.finish.reverse } := by
  unfold State.step State.finish
  cases hq : s.sequence? with
  | none => simp [State.start]
  | some q =>
    have hlow : 0x80 ≤ q.low := h q hq
    have hrange : (q.low ≤ 10 && 10 ≤ q.high) = false := by
      rw [Bool.and_eq_false_iff]
      left
      rw [decide_eq_false_iff_not, UInt8.le_iff_toNat_le]
      have hnat : 128 ≤ q.low.toNat := UInt8.le_iff_toNat_le.mp hlow
      simp only [UInt8.toNat_ofNat]
      omega
    simp [hrange, State.start]

theorem decode_append_lineFeed (bytes : List UInt8) :
    decode (bytes ++ [10]) = decode bytes ++ [some '\n'] := by
  have hstep := (State.sound_foldl bytes).step_lineFeed
  rw [decode, List.foldl_append, List.foldl_cons, List.foldl_nil, hstep]
  simp [State.finish, decode]

theorem decodeLossy_append_lineFeed (bytes : List UInt8) :
    (decodeLossy (bytes ++ [10])).toList = (decodeLossy bytes).toList ++ ['\n'] := by
  simp [decodeLossy, decode_append_lineFeed]

end Utf8

end Text

namespace Wire

open Text (Splitter)

namespace Body

/-! ### Lines as a function of the bytes -/

/-- The lines that a line feed has completed, without it. -/
def completed (bytes : List UInt8) : List (List UInt8) := (bytes.splitOn 10).dropLast

/-- What follows the last line feed. -/
def unfinished (bytes : List UInt8) : List UInt8 :=
  (bytes.splitOn 10).getLast (List.splitOn_ne_nil 10 bytes)

/-- The text of a line: decoded, and then without the carriage returns and line feeds at its end. -/
def decoded (line : List UInt8) : String :=
  String.ofList ((Text.Utf8.decodeLossy line).toList.rdropWhile fun c => c = '\r' ∨ c = '\n')

theorem lineText_eq_decoded (line : List UInt8) : lineText line = decoded line := by
  simp only [lineText, decoded, Text.dropEndWhile, List.rdropWhile, Bool.decide_or]

theorem decoded_append_lineFeed (line : List UInt8) : decoded (line ++ [10]) = decoded line := by
  rw [decoded, Text.Utf8.decodeLossy_append_lineFeed,
    List.rdropWhile_concat_pos _ _ _ (by decide), decoded]

theorem split_eq (b : Body) : b.split = Splitter.feed isLineFeed {} b.bytes :=
  foldl_feed b.portions {}

theorem closed_split (b : Body) : b.split.closed = completed b.bytes := by
  rw [split_eq, Splitter.closed_eq_dropLast]
  rfl

theorem underWay_split (b : Body) : b.split.underWay = unfinished b.bytes := by
  rw [split_eq, Splitter.underWay_eq_getLast]
  rfl

/-- A complete body ends with the rest, if there is one. -/
theorem lines_complete (portions : List (List UInt8)) :
    lines ⟨portions, none⟩ =
      (completed portions.flatten ++
        (if unfinished portions.flatten = [] then [] else [unfinished portions.flatten])).map
        fun line => .ok (decoded line) := by
  have hclosed := closed_split ⟨portions, none⟩
  have hrest := underWay_split ⟨portions, none⟩
  simp only [lines, hclosed, hrest, lineText_eq_decoded, bytes, List.isEmpty_iff]
  split <;> simp

/-- A broken body ends with its failure. -/
theorem lines_broken (portions : List (List UInt8)) (f : TransportFailure) :
    lines ⟨portions, some f⟩ =
      (completed portions.flatten).map (fun line => .ok (decoded line)) ++
        [.error (.transport f)] := by
  have hclosed := closed_split ⟨portions, some f⟩
  simp only [lines, hclosed, lineText_eq_decoded, bytes]

end Body

/-! ### The statement -/

/-- **Portions do not matter.**  However a sequence of bytes is cut, a complete body gives the
pieces between its line feeds, the last only when it is not empty; a broken one gives the pieces
that a line feed has ended, and then its failure; and an assembly makes of a body what it makes of
the same bytes in one portion.  The text of a piece is the same whether it is decoded with the line
feed or without it. -/
theorem portions_do_not_matter (portions : List (List UInt8)) :
    Body.lines ⟨portions, none⟩ =
        (Body.completed portions.flatten ++
          (if Body.unfinished portions.flatten = [] then []
            else [Body.unfinished portions.flatten])).map (fun line => .ok (Body.decoded line)) ∧
      (∀ f, Body.lines ⟨portions, some f⟩ =
        (Body.completed portions.flatten).map (fun line => .ok (Body.decoded line)) ++
          [.error (.transport f)]) ∧
      (∀ line, Body.decoded (line ++ [10]) = Body.decoded line) ∧
      ∀ (σ : Type) (a : Assembly σ) (failure? : Option TransportFailure),
        a.chunks ⟨portions, failure?⟩ = a.chunks ⟨[portions.flatten], failure?⟩ := by
  refine ⟨Body.lines_complete portions, Body.lines_broken portions, Body.decoded_append_lineFeed,
    fun σ a failure? => ?_⟩
  unfold Assembly.chunks
  rw [Body.lines_eq]
  rfl

-- one portion ends inside a character, the next between a carriage return and its line feed
example : Body.lines ⟨[[0x6F, 0xC3], [0xA9, 13], [10, 0x74]], none⟩ = [.ok "oé", .ok "t"] := by rfl

end Wire

end Parley
