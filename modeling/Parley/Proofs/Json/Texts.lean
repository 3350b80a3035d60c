import Mathlib.Tactic.SplitIfs
import Parley.Json.Parser
import Parley.Json.Printer
import Parley.Text.Blank

/-!
# Texts of values

Every value has a text that is not empty (`print_ne_empty`), and no text of blanks holds a value
(`allBlank_eq_false_of_parse`).
-/

namespace Parley.Json

/-! ### Printed values -/

theorem intChars_ne_nil (i : Int) : intChars i ≠ [] := by
  unfold intChars
  split_ifs
  · exact List.cons_ne_nil _ _
  · exact Nat.toDigits_ne_nil

theorem write_ne_nil (l : Floating.Layout) (d : Floating.Decimal) : l.write d ≠ [] := by
  have hdigits : Nat.toDigits 10 d.digits ≠ [] := Nat.toDigits_ne_nil
  unfold Floating.Layout.write
  dsimp only
  split_ifs
  · simp [hdigits]
  · simp [hdigits]
  · simp
  · simp
  · split
    · contradiction
    · exact List.cons_ne_nil _ _
    · exact List.cons_ne_nil _ _

theorem numberChars_ne_nil (n : Number) : n.chars ≠ [] := by
  cases n with
  | int i => exact intChars_ne_nil i
  | float x =>
    have hbody : (if x.significand == 0 then '0' :: (if floatLayout.pointed then ['.', '0'] else [])
        else floatLayout.write (Floating.shortest Floating.binary64 x)) ≠ [] := by
      split_ifs
      · exact List.cons_ne_nil _ _
      · exact List.cons_ne_nil _ _
      · exact write_ne_nil _ _
    show floatLayout.render Floating.binary64 x ≠ []
    rw [Floating.Layout.render]
    cases x.negative with
    | true => exact List.cons_ne_nil _ _
    | false => exact hbody

theorem print_ne_empty (v : Json) : v.print ≠ "" := by
  have hchars : v.chars ≠ [] := by
    cases v with
    | bool b => cases b <;> exact List.cons_ne_nil _ _
    | num n => exact numberChars_ne_nil n
    | _ => exact List.cons_ne_nil _ _
  intro hprint
  rw [← String.toList_eq_nil_iff, toList_print] at hprint
  exact hchars hprint

theorem parse_print {v : Json} (h : parseChars v.chars = .ok v) : parse v.print = .ok v := by
  rw [parse, toList_print]
  exact h

/-! ### Blank texts hold no value -/

theorem isDigit_eq_false_of_isBlank {c : Char} (h : Text.isBlank c = true) : c.isDigit = false := by
  rw [Bool.eq_false_iff]
  intro hdigit
  simp only [Char.isDigit, Bool.and_eq_true, decide_eq_true_eq, ge_iff_le,
    UInt32.le_iff_toNat_le] at hdigit
  simp only [Text.isBlank, Bool.or_eq_true, Bool.and_eq_true, decide_eq_true_eq, beq_iff_eq,
    UInt32.le_iff_toNat_le, ← UInt32.toNat_inj] at h
  simp only [Char.reduceVal, UInt32.reduceToNat] at h hdigit
  omega

theorem ne_of_isBlank {c d : Char} (h : Text.isBlank c = true) (hd : Text.isBlank d = false) :
    c ≠ d := by
  rintro rfl
  rw [h] at hd
  cases hd

/-- A blank cannot begin a value. -/
theorem beginValue_of_isBlank (r : Reader) {c : Char} (h : Text.isBlank c = true) :
    r.beginValue c = r.stopAt c .valueExpected := by
  have hstart : Numeral.start? c = none := by
    rw [Numeral.start?, if_neg (ne_of_isBlank h (by decide)), if_neg (ne_of_isBlank h (by decide)),
      isDigit_eq_false_of_isBlank h]
    rfl
  rw [Reader.beginValue, if_neg (ne_of_isBlank h (by decide)), if_neg (ne_of_isBlank h (by decide)),
    if_neg (ne_of_isBlank h (by decide)), if_neg (ne_of_isBlank h (by decide)),
    if_neg (ne_of_isBlank h (by decide)), if_neg (ne_of_isBlank h (by decide)), hstart]

/-- Blanks leave the reader where it was, or it fails. -/
theorem run_blanks {cs : List Char} (h : ∀ c ∈ cs, Text.isBlank c = true) (r : Reader)
    (hr : r.mode = .value) :
    (∃ e, r.run cs = .error e) ∨ ∃ r', r.run cs = .ok r' ∧ r'.mode = .value := by
  induction cs generalizing r with
  | nil => exact Or.inr ⟨r, rfl, hr⟩
  | cons c cs ih =>
    obtain ⟨hc, hcs⟩ := List.forall_mem_cons.mp h
    rw [Reader.run, Reader.step, hr]
    dsimp only
    by_cases hspace : isSpace c = true
    · rw [if_pos hspace]
      exact ih hcs _ rfl
    · rw [if_neg hspace, beginValue_of_isBlank r hc]
      exact Or.inl ⟨_, rfl⟩

theorem allBlank_eq_false_of_parse {s : String} {v : Json} (h : parse s = .ok v) :
    Text.allBlank s = false := by
  rw [Bool.eq_false_iff]
  intro hblank
  rw [Text.allBlank, List.all_eq_true] at hblank
  rw [parse, parseChars] at h
  rcases run_blanks hblank {} rfl with ⟨e, he⟩ | ⟨r, hrun, hmode⟩
  · rw [he] at h
    cases h
  · rw [hrun] at h
    simp [Reader.finish, hmode] at h

end Parley.Json
