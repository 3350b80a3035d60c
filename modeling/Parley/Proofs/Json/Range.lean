import Mathlib.Data.List.Basic
import Mathlib.Tactic.SplitIfs
import Parley.Json.Parser

/-!
# Values that are read

A value that is read from a text is nested no deeper than the reader goes, the names in its objects
ascend, and its integers have 64 bits (`within_of_parse`, `ranged_of_parse`).

The invariant of the reader is about what it has kept.  The digits of a number under way fit a word
of 64 bits (`Mode.Kept`), and a list or an object that is open holds values that may be nested as
deep as the levels above it leave room for (`Kept`).
-/

namespace Parley

namespace Entries

variable {α : Type}

theorem mem_put {name : String} {a : α} {e : String × α} {es : List (String × α)}
    (h : e ∈ put name a es) :
    e = (name, a) ∨ e ∈ es := by
  induction es with
  | nil => exact Or.inl (List.mem_singleton.mp h)
  | cons x es ih =>
    obtain ⟨k, b⟩ := x
    rw [put] at h
    split_ifs at h
    · exact List.mem_cons.mp h
    · exact (List.mem_cons.mp h).imp_right (List.mem_cons_of_mem _)
    · rcases List.mem_cons.mp h with rfl | h
      · exact Or.inr List.mem_cons_self
      · exact (ih h).imp_right (List.mem_cons_of_mem _)

theorem mem_foldl_put {e : String × α} {es done : List (String × α)}
    (h : e ∈ es.foldl (fun done (k, a) => put k a done) done) : e ∈ done ∨ e ∈ es := by
  induction es generalizing done with
  | nil => exact Or.inl h
  | cons x es ih =>
    rcases ih h with hput | hes
    · rcases mem_put hput with rfl | hdone
      · exact Or.inr List.mem_cons_self
      · exact Or.inl hdone
    · exact Or.inr (List.mem_cons_of_mem _ hes)

theorem mem_ofList {e : String × α} {es : List (String × α)} (h : e ∈ ofList es) : e ∈ es :=
  (mem_foldl_put h).resolve_left List.not_mem_nil

end Entries

namespace Json

/-- Whether a number has 64 bits if it is an integer. -/
def Number.Ranged : Number → Prop
  | .int i => -Word.count 63 ≤ i ∧ i < Word.count 64
  | .float _ => True

/-- Whether all integers in a value have 64 bits. -/
inductive Ranged : Json → Prop where
  | null : Ranged .null
  | bool (b : Bool) : Ranged (.bool b)
  | num {n : Number} (h : n.Ranged) : Ranged (.num n)
  | str (s : String) : Ranged (.str s)
  | arr {items : List Json} (h : ∀ v ∈ items, Ranged v) : Ranged (.arr items)
  | obj {members : List (String × Json)} (h : ∀ e ∈ members, Ranged e.2) : Ranged (.obj members)

/-- Whether a value is nested at most so deep, with ascending names in its objects and numbers that
satisfy `P`. -/
inductive Within (P : Number → Prop) : Nat → Json → Prop where
  | null (n : Nat) : Within P n .null
  | bool (n : Nat) (b : Bool) : Within P n (.bool b)
  | num (n : Nat) {x : Number} (h : P x) : Within P n (.num x)
  | str (n : Nat) (s : String) : Within P n (.str s)
  | arr {n : Nat} {items : List Json} (h : ∀ v ∈ items, Within P n v) :
    Within P (n + 1) (.arr items)
  | obj {n : Nat} {members : List (String × Json)} (order : Entries.Ascending members)
    (h : ∀ e ∈ members, Within P n e.2) : Within P (n + 1) (.obj members)

theorem Within.ranged {n : Nat} {v : Json} (h : v.Within Number.Ranged n) : v.Ranged := by
  induction h with
  | null n => exact .null
  | bool n b => exact .bool b
  | num n h => exact .num h
  | str n s => exact .str s
  | arr _ ih => exact .arr ih
  | obj _ _ ih => exact .obj ih

/-! ### Numbers under way -/

namespace Numeral

theorem digitValue_lt {c : Char} (h : c.isDigit = true) : digitValue c < Word.count 64 := by
  simp only [Char.isDigit, Bool.and_eq_true, decide_eq_true_eq, ge_iff_le, UInt32.le_iff_toNat_le,
    Char.reduceVal, UInt32.reduceToNat] at h
  have hcount : Word.count 64 = 18446744073709551616 := by decide
  rw [digitValue, hcount, Char.toNat]
  omega

theorem digits_start? {c : Char} {n : Numeral} (h : start? c = some n) :
    n.digits < Word.count 64 := by
  unfold start? at h
  split_ifs at h with _ _ hdigit
  · cases h
    decide
  · cases h
    decide
  · cases h
    exact digitValue_lt hdigit

theorem digits_takeFraction {n : Numeral} (h : n.digits < Word.count 64) (c : Char) :
    (n.takeFraction c).digits < Word.count 64 := by
  unfold takeFraction
  split_ifs with hfits
  · exact of_decide_eq_true hfits
  · exact h

theorem digits_takePower {n n' : Numeral} {c : Char} (h : n.takePower c = .goOn n') :
    n'.digits = n.digits := by
  unfold takePower at h
  split_ifs at h
  · cases h
    rfl
  · cases h
    rfl

theorem digits_afterWhole {n n' : Numeral} {c : Char} (h : n.afterWhole c = .goOn n') :
    n'.digits = n.digits := by
  unfold afterWhole at h
  split_ifs at h
  · cases h
    rfl
  · cases h
    rfl

theorem digits_afterFraction {n n' : Numeral} {c : Char} (h : n.afterFraction c = .goOn n') :
    n'.digits = n.digits := by
  unfold afterFraction at h
  split_ifs at h
  cases h
  rfl

/-- The digits of a numeral fit a word as long as it goes on. -/
theorem digits_step {n n' : Numeral} {c : Char} (hn : n.digits < Word.count 64)
    (h : n.step c = .goOn n') :
    n'.digits < Word.count 64 := by
  unfold step at h
  -- a digit enters the word where it is the first one or still fits; elsewhere the word stays as it
  -- is
  cases hpart : n.part <;> simp only [hpart] at h
  case sign =>
    split_ifs at h with _ hdigit
    · cases h
      exact hn
    · cases h
      exact digitValue_lt hdigit
  case zero =>
    split_ifs at h
    rw [digits_afterWhole h]
    exact hn
  case whole =>
    split_ifs at h with _ hfits
    · cases h
      exact of_decide_eq_true hfits
    · cases h
      exact hn
    · rw [digits_afterWhole h]
      exact hn
  case long =>
    split_ifs at h
    · cases h
      exact hn
    · rw [digits_afterWhole h]
      exact hn
  case point =>
    split_ifs at h
    cases h
    exact digits_takeFraction hn c
  case fraction =>
    split_ifs at h
    · cases h
      exact digits_takeFraction hn c
    · rw [digits_afterFraction h]
      exact hn
  case dropped =>
    split_ifs at h
    · cases h
      exact hn
    · rw [digits_afterFraction h]
      exact hn
  case mark =>
    split_ifs at h
    · cases h
      exact hn
    · cases h
      exact hn
    · rw [digits_takePower h]
      exact hn
  case markSign =>
    split_ifs at h
    rw [digits_takePower h]
    exact hn
  case power =>
    split_ifs at h
    rw [digits_takePower h]
    exact hn
  case vanished =>
    split_ifs at h
    cases h
    exact hn

theorem ranged_whole {n : Numeral} {v : Number} (hn : n.digits < Word.count 64)
    (h : n.whole = some v) :
    v.Ranged := by
  have hcount : Word.count 64 = 18446744073709551616 := by decide
  have hhalf : Word.count 63 = 9223372036854775808 := by decide
  unfold whole at h
  split_ifs at h with hpositive hfits
  · cases h
    rw [Number.Ranged]
    omega
  · cases h
    rw [Bool.and_eq_true, decide_eq_true_eq, decide_eq_true_eq] at hfits
    rw [Number.Ranged]
    omega
  · obtain ⟨x, -, rfl⟩ := Option.map_eq_some_iff.mp h
    trivial

theorem ranged_value? {n : Numeral} {v : Number} (hn : n.digits < Word.count 64)
    (h : n.value? = some v) :
    v.Ranged := by
  unfold value? at h
  split at h
  · exact ranged_whole hn h
  · exact ranged_whole hn h
  · cases h
    trivial
  · obtain ⟨x, -, rfl⟩ := Option.map_eq_some_iff.mp h
    trivial

end Numeral

/-! ### The reader -/

/-- How deep a value may be nested that is handed to these frames. -/
def room (frames : List Frame) : Nat := maxDepth - frames.length

/-- Whether what an open list or object holds has been read, with values nested at most so deep. -/
def Frame.Kept (n : Nat) : Frame → Prop
  | .list items => ∀ v ∈ items, v.Within Number.Ranged n
  | .object members _ => ∀ e ∈ members, e.2.Within Number.Ranged n

/-- Whether each frame was opened where there was room for it, and holds what has been read in
it. -/
def Kept : List Frame → Prop
  | [] => True
  | f :: rest => room (f :: rest) + 1 = room rest ∧ f.Kept (room (f :: rest)) ∧ Kept rest

/-- Whether what the reader is in the middle of can only end in a value of that kind. -/
def Mode.Kept : Mode → Prop
  | .word _ v => ∀ n, v.Within Number.Ranged n
  | .number n => n.digits < Word.count 64
  | .done v => v.Within Number.Ranged maxDepth
  | _ => True

theorem kept_tail {frames : List Frame} (h : Kept frames) :
    Kept frames.tail ∧ 0 < room frames.tail := by
  cases frames with
  | nil => exact ⟨trivial, by decide⟩
  | cons f rest =>
    obtain ⟨hroom, -, hrest⟩ := h
    exact ⟨hrest, show 0 < room rest by omega⟩

/-- A list or an object may be opened. -/
theorem kept_cons {f : Frame} {frames : List Frame} (hroom : frames.length < maxDepth)
    (hf : f.Kept (room (f :: frames))) (h : Kept frames) : Kept (f :: frames) := by
  refine ⟨?_, hf, h⟩
  rw [room, room, List.length_cons]
  omega

namespace Reader

/-- Whether what the reader has taken keeps to the format. -/
structure Sound (r : Reader) : Prop where
  mode : r.mode.Kept
  frames : Kept r.frames

/-- Whether a step leads to such a reader, if it leads to any. -/
def Keeps (x : Except ParseError Reader) : Prop := ∀ r, x = .ok r → r.Sound

variable {r : Reader} {c : Char} {frames : List Frame}

theorem keeps_error (e : ParseError) : Keeps (.error e) := by
  intro r h
  cases h

theorem keeps_ok {mode : Mode} {p : Position} (hmode : mode.Kept) (hframes : Kept frames) :
    Keeps (.ok ⟨mode, frames, p⟩) := by
  intro r h
  cases h
  exact ⟨hmode, hframes⟩

theorem kept_complete {v : Json} (hv : v.Within Number.Ranged (room frames))
    (hframes : Kept frames) :
    (complete v frames).1.Kept ∧ Kept (complete v frames).2 := by
  cases frames with
  | nil => exact ⟨hv, hframes⟩
  | cons frame rest =>
    obtain ⟨hroom, hframe, hrest⟩ := hframes
    cases frame with
    | list items => exact ⟨trivial, hroom, List.forall_mem_cons.mpr ⟨hv, hframe⟩, hrest⟩
    | object members name => exact ⟨trivial, hroom, List.forall_mem_cons.mpr ⟨hv, hframe⟩, hrest⟩

theorem keeps_finishWith {v : Json} (hv : v.Within Number.Ranged (room frames))
    (hframes : Kept frames) :
    Keeps (r.finishWith c v frames) := by
  obtain ⟨hmode, hrest⟩ := kept_complete hv hframes
  exact keeps_ok hmode hrest

theorem keeps_beginValue (hr : Kept r.frames) : Keeps (r.beginValue c) := by
  unfold beginValue
  split_ifs with _ hroom _ hroom
  · exact keeps_ok trivial (kept_cons hroom (List.forall_mem_nil _) hr)
  · exact keeps_error _
  · exact keeps_ok trivial (kept_cons hroom (List.forall_mem_nil _) hr)
  · exact keeps_error _
  · exact keeps_ok trivial hr
  · exact keeps_ok (fun n => .null n) hr
  · exact keeps_ok (fun n => .bool n true) hr
  · exact keeps_ok (fun n => .bool n false) hr
  · split
    · rename_i n hn
      exact keeps_ok (Numeral.digits_start? hn) hr
    · exact keeps_error _

theorem keeps_afterValue (hr : r.Sound) : Keeps (r.afterValue c) := by
  unfold afterValue
  by_cases hspace : isSpace c = true
  · rw [if_pos hspace]
    exact keeps_ok hr.mode hr.frames
  · rw [if_neg hspace]
    split
    · exact keeps_error _
    · rename_i items rest hframes
      have hopen := hr.frames
      rw [hframes] at hopen
      obtain ⟨hroom, hitems, hrest⟩ := hopen
      have hlist := Within.arr fun v hv => hitems v (List.mem_reverse.mp hv)
      rw [hroom] at hlist
      split_ifs
      · exact keeps_ok trivial hr.frames
      · exact keeps_finishWith hlist hrest
      · exact keeps_error _
    · rename_i members name rest hframes
      have hopen := hr.frames
      rw [hframes] at hopen
      obtain ⟨hroom, hmembers, hrest⟩ := hopen
      have hobject := Within.obj (Entries.ascending_ofList members.reverse)
        fun e he => hmembers e (List.mem_reverse.mp (Entries.mem_ofList he))
      rw [hroom] at hobject
      split_ifs
      · exact keeps_ok trivial hr.frames
      · exact keeps_finishWith hobject hrest
      · exact keeps_error _

theorem keeps_endString (hr : Kept r.frames) (isName : Bool) (read : List Char) :
    Keeps (r.endString c isName read) := by
  unfold endString
  dsimp only
  split_ifs
  · split
    · rename_i members name rest hframes
      rw [hframes] at hr
      exact keeps_ok trivial hr
    · exact keeps_ok trivial hr
  · exact keeps_finishWith (.str _ _) hr

theorem keeps_endHex (hr : Kept r.frames) (p : Position) (isName : Bool) (read : List Char)
    (value : Nat) (leading? : Option Nat) : Keeps (r.endHex p isName read value leading?) := by
  unfold endHex
  cases leading? with
  | none =>
    dsimp only
    split_ifs
    · exact keeps_error _
    · exact keeps_ok trivial hr
    · exact keeps_ok trivial hr
  | some leading =>
    dsimp only
    split_ifs
    · exact keeps_ok trivial hr
    · exact keeps_error _

theorem keeps_takeHex (hr : Kept r.frames) (isName : Bool) (read : List Char) (missing : Nat)
    (value? leading? : Option Nat) : Keeps (r.takeHex c isName read missing value? leading?) := by
  unfold takeHex
  dsimp only
  split_ifs
  · exact keeps_ok trivial hr
  all_goals
    split
    · exact keeps_endHex hr _ _ _ _ _
    · exact keeps_error _

theorem keeps_takeString (hr : Kept r.frames) (isName : Bool) (read : List Char)
    (escape : Escape) : Keeps (r.takeString c isName read escape) := by
  cases escape with
  | none =>
    unfold takeString
    dsimp only
    split_ifs
    · exact keeps_endString hr isName read
    · exact keeps_ok trivial hr
    · exact keeps_error _
    · exact keeps_ok trivial hr
  | letter =>
    unfold takeString
    dsimp only
    split_ifs
    · exact keeps_ok trivial hr
    · split
      · exact keeps_ok trivial hr
      · exact keeps_error _
  | hex missing value? leading? => exact keeps_takeHex hr isName read missing value? leading?
  | backslash leading =>
    unfold takeString
    dsimp only
    split_ifs
    · exact keeps_ok trivial hr
    · exact keeps_error _
  | letterU leading =>
    unfold takeString
    dsimp only
    split_ifs
    · exact keeps_ok trivial hr
    · exact keeps_error _

theorem keeps_beginName (hr : Kept r.frames) : Keeps (r.beginName c) := by
  unfold beginName
  split_ifs
  · exact keeps_ok trivial hr
  · exact keeps_error _

/-- **One character** keeps it so, whatever the reader is in the middle of. -/
theorem keeps_step (hr : r.Sound) : Keeps (r.step c) := by
  have hmode := hr.mode
  obtain ⟨htail, hroom⟩ := kept_tail hr.frames
  obtain ⟨n, hn⟩ := Nat.exists_eq_add_of_lt hroom
  unfold step
  cases h : r.mode with
  | value =>
    dsimp only
    split_ifs
    · exact keeps_ok trivial hr.frames
    · exact keeps_beginValue hr.frames
  | firstItem =>
    have hempty : (Json.arr []).Within Number.Ranged (room r.frames.tail) := by
      rw [hn]
      exact .arr (List.forall_mem_nil _)
    dsimp only
    split_ifs
    · exact keeps_ok trivial hr.frames
    · exact keeps_finishWith hempty htail
    · exact keeps_beginValue hr.frames
  | nextItem =>
    dsimp only
    split_ifs
    · exact keeps_ok trivial hr.frames
    · exact keeps_error _
    · exact keeps_beginValue hr.frames
  | firstName =>
    have hempty : (Json.obj []).Within Number.Ranged (room r.frames.tail) := by
      rw [hn]
      exact .obj List.Pairwise.nil (List.forall_mem_nil _)
    dsimp only
    split_ifs
    · exact keeps_ok trivial hr.frames
    · exact keeps_finishWith hempty htail
    · exact keeps_beginName hr.frames
  | nextName =>
    dsimp only
    split_ifs
    · exact keeps_ok trivial hr.frames
    · exact keeps_error _
    · exact keeps_beginName hr.frames
  | colon =>
    dsimp only
    split_ifs
    · exact keeps_ok trivial hr.frames
    · exact keeps_ok trivial hr.frames
    · exact keeps_error _
  | word rest v =>
    rw [h] at hmode
    cases rest with
    | nil => exact keeps_error _
    | cons w ws =>
      dsimp only
      split_ifs
      · exact keeps_finishWith (hmode _) hr.frames
      · exact keeps_ok hmode hr.frames
      · exact keeps_error _
  | number n =>
    rw [h] at hmode
    dsimp only
    -- a character that ends a number is looked at again, behind the number
    cases hstep : n.step c with
    | goOn n' => exact keeps_ok (Numeral.digits_step hmode hstep) hr.frames
    | malformed => exact keeps_error _
    | tooLarge => exact keeps_error _
    | «over» =>
      cases hvalue : n.value? with
      | none => exact keeps_error _
      | some number =>
        obtain ⟨hnext, hframes⟩ :=
          kept_complete (.num _ (Numeral.ranged_value? hmode hvalue)) hr.frames
        exact keeps_afterValue ⟨hnext, hframes⟩
  | string isName read escape => exact keeps_takeString hr.frames isName read escape
  | afterValue => exact keeps_afterValue hr
  | done v => exact keeps_afterValue hr

theorem sound_run {cs : List Char} {r' : Reader} (hr : r.Sound) (h : r.run cs = .ok r') :
    r'.Sound := by
  induction cs generalizing r with
  | nil =>
    cases h
    exact hr
  | cons c cs ih =>
    rw [run] at h
    cases hstep : r.step c with
    | error e =>
      rw [hstep] at h
      cases h
    | ok s =>
      rw [hstep] at h
      exact ih (keeps_step hr s hstep) h

theorem within_finish {v : Json} (hr : r.Sound) (h : r.finish = .ok v) :
    v.Within Number.Ranged maxDepth := by
  unfold finish at h
  split at h
  · rename_i w hmode
    cases h
    have hdone := hr.mode
    rwa [hmode] at hdone
  · rename_i n hmode
    have hn : n.digits < Word.count 64 := by
      have hnumber := hr.mode
      rwa [hmode] at hnumber
    split_ifs at h
    split at h
    · cases h
    · rename_i number hnumber
      have hcomplete := kept_complete (.num _ (Numeral.ranged_value? hn hnumber)) hr.frames
      split at h
      · rename_i w frames hdone
        cases h
        rw [hdone] at hcomplete
        exact hcomplete.1
      · cases h
  · cases h

end Reader

/-- **What is read keeps to the format**: how deep it is nested, the order of its names, its
integers. -/
theorem within_of_parse {s : String} {v : Json} (h : parse s = .ok v) :
    v.Within Number.Ranged maxDepth := by
  rw [parse, parseChars] at h
  cases hrun : Reader.run {} s.toList with
  | error e =>
    rw [hrun] at h
    cases h
  | ok r =>
    rw [hrun] at h
    have hstart : Reader.Sound {} := ⟨trivial, trivial⟩
    exact Reader.within_finish (Reader.sound_run hstart hrun) h

/-- **Integers have 64 bits** in every value that is read. -/
theorem ranged_of_parse {s : String} {v : Json} (h : parse s = .ok v) : v.Ranged :=
  (within_of_parse h).ranged

/-! ### What is found in a value -/

variable {v : Json}

theorem Ranged.member (h : v.Ranged) (name : String) : (v.member name).Ranged := by
  cases h with
  | @obj members hmembers =>
    rw [Json.member, get?]
    cases hlookup : members.lookup name with
    | none => exact .null
    | some a =>
      obtain ⟨before, after, rfl, -⟩ := List.lookup_eq_some_iff.mp hlookup
      exact hmembers (name, a) (by simp)
  | _ => exact .null

theorem Ranged.nth (h : v.Ranged) (i : Nat) : (v.nth i).Ranged := by
  cases h with
  | @arr items hitems =>
    rw [Json.nth, item?]
    cases hi : items[i]? with
    | none => exact .null
    | some a => exact hitems a (List.mem_of_getElem? hi)
  | _ => exact .null

theorem Ranged.of_mem_items {a : Json} (h : v.Ranged) (ha : a ∈ v.items?.getD []) : a.Ranged := by
  cases h with
  | arr hitems => exact hitems a ha
  | _ => cases ha

/-! ### Natural numbers that are read -/

theorem Ranged.nat_lt {i : Nat} (h : (Json.nat i).Ranged) : i < Word.count 64 := by
  cases h with
  | num hint => exact Int.ofNat_lt.mp hint.2

theorem nat_inj {i k : Nat} : Json.nat i = .nat k ↔ i = k := by
  rw [nat, nat, num.injEq, Number.int.injEq, Int.ofNat_inj]

theorem nat64?_nat {i : Nat} (h : i < Word.count 64) : (Json.nat i).nat64? = some i := by
  have hholds : Word.holds 64 i = true := decide_eq_true h
  simp [Json.nat, Json.nat64?, Json.int?, hholds]

/-- What is read as a natural number is one. -/
theorem eq_nat_of_nat64? {i : Nat} (h : v.nat64? = some i) : v = .nat i := by
  obtain ⟨k, hk, rfl⟩ := Option.map_eq_some_iff.mp h
  obtain ⟨hint, hholds⟩ := Option.filter_eq_some_iff.mp hk
  have hpos : 0 ≤ k := by simpa using (Bool.and_eq_true_iff.mp hholds).1
  cases v with
  | num n =>
    cases n with
    | int i =>
      cases hint
      rw [nat, Int.toNat_of_nonneg hpos]
    | float x => cases hint
  | _ => cases hint

end Json

end Parley
