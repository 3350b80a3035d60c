import Parley.Json.Printer
import Parley.Proofs.Json.Range

/-!
# Numbers that are written and read

A number is written in digits, signs, points and exponent marks only (`isNumeric_of_mem_chars`), so
the reader stays in a number for as long as one lasts, whatever lists and objects are open around it
(`Reader.leads_number`).  `Number.Legible` says that it comes to the same number there.

Integers of 64 bits are legible (`Number.legible_int`).  A float is when its text is read back as
that float (`Number.legible_of_parse`): its digits are scaled in two roundings when it is read, so
this is not so for all of them.
-/

namespace Parley.Json

/-! ### The text of a number -/

/-- Whether a character may stand in a number. -/
def isNumeric (c : Char) : Bool := c.isDigit || c == '-' || c == '+' || c == '.' || c == 'e'

theorem isNumeric_of_isDigit {c : Char} (h : c.isDigit = true) : isNumeric c = true := by
  rw [isNumeric, h]
  rfl

theorem isNumeric_of_mem_toDigits {n : Nat} : ∀ c ∈ Nat.toDigits 10 n, isNumeric c = true :=
  fun _ hc => isNumeric_of_isDigit (Nat.isDigit_of_mem_toDigits (by decide) (by decide) hc)

theorem isNumeric_of_mem_exponentPart {e : Int} :
    ∀ c ∈ Floating.exponentPart e, isNumeric c = true := by
  rw [Floating.exponentPart]
  refine List.forall_mem_cons.mpr ⟨rfl, List.forall_mem_cons.mpr ⟨?_, isNumeric_of_mem_toDigits⟩⟩
  split <;> rfl

theorem isNumeric_of_mem_write {l : Floating.Layout} {d : Floating.Decimal} :
    ∀ c ∈ l.write d, isNumeric c = true := by
  have hdigits : ∀ c ∈ Nat.toDigits 10 d.digits, isNumeric c = true := isNumeric_of_mem_toDigits
  have hzeros (n : Nat) : ∀ c ∈ List.replicate n '0', isNumeric c = true := by
    intro c hc
    rw [List.eq_of_mem_replicate hc]
    rfl
  unfold Floating.Layout.write
  dsimp only
  split_ifs with _ hwhole hpointed
  · simp only [List.forall_mem_append]
    exact ⟨⟨hdigits, hzeros _⟩, List.all_eq_true.mp (by decide)⟩
  · simp only [List.forall_mem_append]
    exact ⟨⟨hdigits, hzeros _⟩, List.forall_mem_nil _⟩
  · simp only [List.forall_mem_append, List.forall_mem_cons]
    exact ⟨fun c hc => hdigits c (List.mem_of_mem_take hc),
      rfl, fun c hc => hdigits c (List.mem_of_mem_drop hc)⟩
  · simp only [List.forall_mem_append, List.forall_mem_cons]
    exact ⟨⟨rfl, rfl, hzeros _⟩, hdigits⟩
  · split
    · exact List.forall_mem_nil _
    · rename_i c hc
      rw [hc] at hdigits
      exact List.forall_mem_cons.mpr ⟨hdigits c List.mem_cons_self, isNumeric_of_mem_exponentPart⟩
    · rename_i c rest _ hc
      rw [hc, List.forall_mem_cons] at hdigits
      simp only [List.forall_mem_append, List.forall_mem_cons]
      exact ⟨⟨hdigits.1, rfl, hdigits.2⟩, isNumeric_of_mem_exponentPart⟩

theorem isNumeric_of_mem_chars (x : Number) : ∀ c ∈ x.chars, isNumeric c = true := by
  cases x with
  | int i =>
    show ∀ c ∈ intChars i, isNumeric c = true
    unfold intChars
    split_ifs
    · exact List.forall_mem_cons.mpr ⟨rfl, isNumeric_of_mem_toDigits⟩
    · exact isNumeric_of_mem_toDigits
  | float x =>
    have hbody :
        ∀ c ∈ (if x.significand == 0 then '0' :: (if floatLayout.pointed then ['.', '0'] else [])
          else floatLayout.write (Floating.shortest Floating.binary64 x)), isNumeric c = true := by
      split_ifs
      · exact List.all_eq_true.mp (by decide)
      · exact List.all_eq_true.mp (by decide)
      · exact isNumeric_of_mem_write
    show ∀ c ∈ floatLayout.render Floating.binary64 x, isNumeric c = true
    rw [Floating.Layout.render]
    cases x.negative with
    | true => exact List.forall_mem_cons.mpr ⟨rfl, hbody⟩
    | false => exact hbody

theorem ne_of_isNumeric {c d : Char} (h : isNumeric c = true) (hd : isNumeric d = false) :
    c ≠ d := by
  rintro rfl
  rw [h] at hd
  cases hd

theorem isSpace_of_isNumeric {c : Char} (h : isNumeric c = true) : isSpace c = false := by
  rw [isSpace, decide_eq_false (ne_of_isNumeric h (by decide)),
    decide_eq_false (ne_of_isNumeric h (by decide)),
    decide_eq_false (ne_of_isNumeric h (by decide)),
    decide_eq_false (ne_of_isNumeric h (by decide))]
  rfl

/-! ### Numerals -/

namespace Numeral

/-- The numeral after some more characters, if all of them belong to it. -/
def takeAll (n : Numeral) : List Char → Option Numeral
  | [] => some n
  | c :: cs =>
    match n.step c with
    | .goOn n => n.takeAll cs
    | _ => none

/-- The numeral that characters make up. -/
def of? : List Char → Option Numeral
  | [] => none
  | c :: cs => (start? c).bind (·.takeAll cs)

theorem takeAll_append (n : Numeral) (cs ds : List Char) :
    n.takeAll (cs ++ ds) = (n.takeAll cs).bind (·.takeAll ds) := by
  induction cs generalizing n with
  | nil => rfl
  | cons c cs ih =>
    rw [List.cons_append, takeAll, takeAll]
    cases n.step c with
    | goOn m => exact ih m
    | _ => rfl

/-- A character that stands in no number ends a complete numeral. -/
theorem step_eq_over {n : Numeral} {c : Char} (hn : n.isComplete = true) (hc : isNumeric c = false)
    (hE : c ≠ 'E') : n.step c = .over := by
  simp only [isNumeric, Bool.or_eq_false_iff, beq_eq_false_iff_ne] at hc
  obtain ⟨⟨⟨⟨hdigit, -⟩, -⟩, hpoint⟩, he⟩ := hc
  have hwhole : n.afterWhole c = .over := by simp [afterWhole, hpoint, he, hE]
  have hfraction : n.afterFraction c = .over := by simp [afterFraction, he, hE]
  unfold isComplete at hn
  unfold step
  cases hpart : n.part <;> simp_all

end Numeral

/-- Whether the text of a number is a complete numeral that stands for it. -/
def Number.Legible (x : Number) : Prop :=
  ∃ n, Numeral.of? x.chars = some n ∧ n.isComplete = true ∧ n.value? = some x

/-! ### Integers -/

namespace Numeral

theorem isDigit_digitChar : ∀ d < 10, (Nat.digitChar d).isDigit = true := by decide

theorem digitValue_digitChar : ∀ d < 10, digitValue (Nat.digitChar d) = d := by decide

theorem digitChar_ne_zero : ∀ d < 10, 0 < d → Nat.digitChar d ≠ '0' := by decide

/-- A whole number of which a beginning has been read. -/
def ofDigits (negative : Bool) (digits : Nat) : Numeral := { part := .whole, negative, digits }

theorem step_ofDigits {negative : Bool} {n d : Nat} (hd : d < 10) (h : n * 10 + d < Word.count 64) :
    (ofDigits negative n).step (Nat.digitChar d) = .goOn (ofDigits negative (n * 10 + d)) := by
  have hfits : fitsWord n (Nat.digitChar d) = true := by
    rw [fitsWord, digitValue_digitChar d hd]
    exact decide_eq_true h
  simp [step, ofDigits, isDigit_digitChar d hd, hfits, digitValue_digitChar d hd]

/-- The digits of a positive number are its first one, which is not zero, and others that lead to
it. -/
theorem exists_takeAll_toDigits {n : Nat} (hn : 0 < n) (h : n < Word.count 64) (negative : Bool) :
    ∃ d cs, 0 < d ∧ d < 10 ∧ Nat.toDigits 10 n = Nat.digitChar d :: cs ∧
      (ofDigits negative d).takeAll cs = some (ofDigits negative n) := by
  -- the last digit is `n % 10`, and what comes before it are the digits of `n / 10`
  induction n using Nat.strongRecOn with
  | ind n ih =>
  by_cases hsmall : n < 10
  · exact ⟨n, [], hn, hsmall, Nat.toDigits_of_lt_base hsmall, rfl⟩
  · obtain ⟨d, cs, hpos, hd, hdigits, htake⟩ := ih (n / 10) (by omega) (by omega) (by omega)
    have hlast : n % 10 < 10 := Nat.mod_lt n (by decide)
    have hsplit : n / 10 * 10 + n % 10 = n := Nat.div_add_mod' n 10
    have hstep : (ofDigits negative (n / 10)).step (Nat.digitChar (n % 10)) =
        .goOn (ofDigits negative n) := by
      rw [step_ofDigits hlast (by rwa [hsplit]), hsplit]
    refine ⟨d, cs ++ [Nat.digitChar (n % 10)], hpos, hd, ?_, ?_⟩
    · rw [Nat.toDigits_of_base_le (by decide) (by omega), hdigits, List.cons_append]
    · rw [takeAll_append, htake]
      show takeAll (ofDigits negative (n / 10)) [Nat.digitChar (n % 10)] = _
      rw [takeAll, hstep]
      rfl

theorem start?_digitChar {d : Nat} (hd : d < 10) (hpos : 0 < d) :
    start? (Nat.digitChar d) = some (ofDigits false d) := by
  have hminus : Nat.digitChar d ≠ '-' := by
    intro h
    have hdigit := isDigit_digitChar d hd
    rw [h] at hdigit
    cases hdigit
  rw [start?, if_neg hminus, if_neg (digitChar_ne_zero d hd hpos), isDigit_digitChar d hd,
    if_pos rfl, digitValue_digitChar d hd]
  rfl

theorem step_sign_digitChar {d : Nat} (hd : d < 10) (hpos : 0 < d) :
    step { part := .sign, negative := true } (Nat.digitChar d) = .goOn (ofDigits true d) := by
  simp [step, digitChar_ne_zero d hd hpos, isDigit_digitChar d hd, digitValue_digitChar d hd,
    ofDigits]

end Numeral

open Numeral in
theorem Number.legible_int {i : Int} (h : (Number.int i).Ranged) : (Number.int i).Legible := by
  obtain ⟨hlow, hhigh⟩ := h
  have hcount : Word.count 64 = 18446744073709551616 := by decide
  have hhalf : Word.count 63 = 9223372036854775808 := by decide
  rcases Int.lt_trichotomy i 0 with hneg | rfl | hpos
  · obtain ⟨d, cs, hdpos, hd, hdigits, htake⟩ :=
      exists_takeAll_toDigits (n := i.natAbs) (by omega) (by omega) true
    refine ⟨ofDigits true i.natAbs, ?_, rfl, ?_⟩
    · show of? (intChars i) = _
      rw [intChars, if_pos hneg, hdigits]
      show takeAll { part := .sign, negative := true } (Nat.digitChar d :: cs) = _
      rw [takeAll, step_sign_digitChar hd hdpos]
      exact htake
    · have hvalue : (-(i.natAbs : Int)) = i := by omega
      have hnonzero : i.natAbs ≠ 0 := by omega
      have hsmall : i.natAbs ≤ Word.count 63 := by omega
      generalize i.natAbs = n at hvalue hnonzero hsmall
      simp [value?, ofDigits, whole, hnonzero, hsmall, hvalue]
  · exact ⟨{ part := .zero, negative := false }, rfl, rfl, rfl⟩
  · obtain ⟨d, cs, hdpos, hd, hdigits, htake⟩ :=
      exists_takeAll_toDigits (n := i.natAbs) (by omega) (by omega) false
    refine ⟨ofDigits false i.natAbs, ?_, rfl, ?_⟩
    · show of? (intChars i) = _
      rw [intChars, if_neg (by omega), hdigits, of?, start?_digitChar hd hdpos]
      exact htake
    · have hvalue : ((i.natAbs : Nat) : Int) = i := by omega
      generalize i.natAbs = n at hvalue
      simp [value?, ofDigits, whole, hvalue]

/-! ### The reader in a number -/

namespace Reader

/-- Whether characters take the reader from one point to another, wherever in a text they stand. -/
def Leads (mode : Mode) (frames : List Frame) (cs : List Char) (mode' : Mode)
    (frames' : List Frame) : Prop :=
  ∀ p, ∃ p', run ⟨mode, frames, p⟩ cs = .ok ⟨mode', frames', p'⟩

theorem Leads.append {mode mode' mode'' : Mode} {frames frames' frames'' : List Frame}
    {cs ds : List Char} (h : Leads mode frames cs mode' frames')
    (h' : Leads mode' frames' ds mode'' frames'') :
    Leads mode frames (cs ++ ds) mode'' frames'' := by
  intro p
  obtain ⟨p', hcs⟩ := h p
  obtain ⟨p'', hds⟩ := h' p'
  exact ⟨p'', by rw [run_append, hcs]; exact hds⟩

/-- One character, which is taken as it comes. -/
theorem Leads.cons {mode mode' mode'' : Mode} {frames frames' frames'' : List Frame} {c : Char}
    {cs : List Char} (h : ∀ p, step ⟨mode, frames, p⟩ c = .ok ⟨mode', frames', p.behind c⟩)
    (h' : Leads mode' frames' cs mode'' frames'') :
    Leads mode frames (c :: cs) mode'' frames'' := by
  intro p
  obtain ⟨p', hcs⟩ := h' (p.behind c)
  exact ⟨p', by rw [run, h p]; exact hcs⟩

theorem Leads.nil (mode : Mode) (frames : List Frame) : Leads mode frames [] mode frames :=
  fun p => ⟨p, rfl⟩

theorem leads_number {n m : Numeral} {cs : List Char} (h : n.takeAll cs = some m)
    (frames : List Frame) :
    Leads (.number n) frames cs (.number m) frames := by
  induction cs generalizing n with
  | nil =>
    cases h
    exact Leads.nil _ _
  | cons c cs ih =>
    rw [Numeral.takeAll] at h
    cases hstep : n.step c with
    | goOn k =>
      rw [hstep] at h
      refine Leads.cons (fun p => ?_) (ih h)
      simp only [step, hstep]
      rfl
    | _ =>
      rw [hstep] at h
      cases h

/-- A value that numeric characters come to, with nothing open around it, is that of a complete
numeral. -/
theorem exists_takeAll_of_run {n : Numeral} {cs : List Char} {p : Position} {r : Reader} {v : Json}
    (hcs : ∀ c ∈ cs, isNumeric c = true) (hrun : run ⟨.number n, [], p⟩ cs = .ok r)
    (hfinish : r.finish = .ok v) :
    ∃ m x, n.takeAll cs = some m ∧ m.isComplete = true ∧ m.value? = some x ∧ v = .num x := by
  induction cs generalizing n p with
  | nil =>
    cases hrun
    simp only [finish] at hfinish
    split_ifs at hfinish with hcomplete
    split at hfinish
    · cases hfinish
    · rename_i x hvalue
      exact ⟨n, x, rfl, hcomplete, hvalue, by cases hfinish; rfl⟩
  | cons c cs ih =>
    obtain ⟨hc, hcs⟩ := List.forall_mem_cons.mp hcs
    rw [run] at hrun
    cases hstep : n.step c with
    | goOn k =>
      simp only [step, hstep] at hrun
      obtain ⟨m, x, htake, hm⟩ := ih hcs hrun
      exact ⟨m, x, by rw [Numeral.takeAll, hstep]; exact htake, hm⟩
    | malformed => simp [step, hstep, stopAt] at hrun
    | tooLarge => simp [step, hstep, stopAt] at hrun
    | «over» =>
      -- behind the outermost value there may be blanks only
      cases hvalue : n.value? with
      | none => simp [step, hstep, hvalue] at hrun
      | some x =>
        simp [step, hstep, hvalue, complete, afterValue, isSpace_of_isNumeric hc, stopAt] at hrun

/-- The first character of a number begins a numeral. -/
theorem beginValue_of_isNumeric {r : Reader} {c : Char} (h : isNumeric c = true) :
    r.beginValue c =
      match Numeral.start? c with
      | some n => r.goOn c (.number n) r.frames
      | none => r.stopAt c .valueExpected := by
  unfold beginValue
  -- none of the six characters that begin another value
  iterate 6 refine (if_neg (ne_of_isNumeric h (by decide))).trans ?_
  rfl

end Reader

/-- A number is legible when its text is read back, with nothing around it. -/
theorem Number.legible_of_parse {x : Number} (h : parse (Json.num x).print = .ok (.num x)) :
    x.Legible := by
  have hnumeric := isNumeric_of_mem_chars x
  rw [parse, toList_print, parseChars] at h
  simp only [Json.chars] at h
  rw [Legible]
  cases hcs : x.chars with
  | nil =>
    rw [hcs] at h
    cases h
  | cons c cs =>
    rw [hcs] at h hnumeric
    obtain ⟨hc, hrest⟩ := List.forall_mem_cons.mp hnumeric
    cases hstart : Numeral.start? c with
    | none =>
      simp [Reader.run, Reader.step, isSpace_of_isNumeric hc, Reader.beginValue_of_isNumeric hc,
        hstart, Reader.stopAt] at h
    | some n =>
      simp only [Reader.run, Reader.step, isSpace_of_isNumeric hc,
        Reader.beginValue_of_isNumeric hc, hstart, Reader.goOn] at h
      split at h
      · cases h
      · rename_i r hrun
        obtain ⟨m, y, htake, hm, hvalue, hy⟩ := Reader.exists_takeAll_of_run hrest hrun h
        cases hy
        exact ⟨m, by rw [Numeral.of?, hstart]; exact htake, hm, hvalue⟩

end Parley.Json
