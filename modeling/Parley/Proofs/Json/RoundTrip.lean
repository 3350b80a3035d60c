import Parley.Proofs.Json.Numbers
import Parley.Proofs.Json.Texts

/-!
# Printed values are read back

`parse_print_of_within`: the text of a value is read as that value when the value is nested no
deeper than the reader goes, the names in its objects ascend, and its numbers are legible.  Every
value that was read is of that kind, as far as its floats are (`Within.legible`).

The proof follows the printed text.  `Reader.Leads` says where a portion of it takes the reader,
whatever is open around it: one character between quotes (`leads_escape`), a member with its name
(`exists_leads_member`), and then by induction a value (`reads_of_within`).  Behind a number the
reader does not know yet that it is over, which is why the place behind a value is a relation of its
own (`Behind`); a comma or a bracket settles it (`Behind.step`).
-/

namespace Parley

namespace Entries

variable {α : Type}

theorem put_eq_append {name : String} {a : α} {es : List (String × α)} (h : ∀ e ∈ es, e.1 < name) :
    put name a es = es ++ [(name, a)] := by
  induction es with
  | nil => rfl
  | cons e es ih =>
    obtain ⟨hfirst, hrest⟩ := List.forall_mem_cons.mp h
    have hlt : ¬ name < e.1 := String.lt_asymm hfirst
    have hne : name ≠ e.1 := (String.ne_of_lt hfirst).symm
    rw [put, if_neg hlt, if_neg hne, ih hrest, List.cons_append]

/-- Entries that are in order stay as they are. -/
theorem ofList_of_ascending {es : List (String × α)} (h : Ascending es) : ofList es = es := by
  have go (done rest : List (String × α)) (h : Ascending (done ++ rest)) :
      rest.foldl (fun done e => put e.1 e.2 done) done = done ++ rest := by
    induction rest generalizing done with
    | nil => exact (List.append_nil done).symm
    | cons e rest ih =>
      have hlast : ∀ d ∈ done, d.1 < e.1 :=
        fun d hd => (List.pairwise_append.mp h).2.2 d hd e List.mem_cons_self
      show rest.foldl _ (put e.1 e.2 done) = done ++ e :: rest
      rw [put_eq_append hlast]
      have hnext := ih (done ++ [e]) (by rwa [List.append_assoc])
      rwa [List.append_assoc] at hnext
  exact go [] es h

end Entries

namespace Json

/-! ### Quoted texts -/

namespace Reader

variable {frames : List Frame}

theorem hexValue?_hexDigit : ∀ d < 16, hexValue? (hexDigit d) = some d := by decide

theorem utf8Size_hexDigit : ∀ d < 16, (hexDigit d).utf8Size = 1 := by decide

/-- A hexadecimal digit that is not the last of four. -/
theorem step_hexDigit {isName : Bool} {read : List Char} {d missing value : Nat} (hd : d < 16)
    (hmissing : 1 < missing) (p : Position) :
    step ⟨.string isName read (.hex missing (some value) none), frames, p⟩ (hexDigit d)
      = .ok ⟨.string isName read (.hex (missing - 1) (some (value * 16 + d)) none), frames,
          p.behind (hexDigit d)⟩ := by
  simp [step, takeString, takeHex, hexValue?_hexDigit d hd, utf8Size_hexDigit d hd, hmissing]

/-- The last of four digits, when they stand for a character on their own. -/
theorem leads_lastHexDigit {isName : Bool} {read : List Char} {d value : Nat} (hd : d < 16)
    (hvalue : value * 16 + d < 0xD800) :
    Leads (.string isName read (.hex 1 (some value) none)) frames [hexDigit d]
      (.string isName (Char.ofNat (value * 16 + d) :: read) .none) frames := by
  have hleading : ¬ 0xD800 ≤ value * 16 + d := by omega
  have htrailing : ¬ 0xDC00 ≤ value * 16 + d := by omega
  intro p
  simp [run, step, takeString, takeHex, hexValue?_hexDigit d hd, utf8Size_hexDigit d hd,
    endHex, hleading, htrailing]

/-- A control character in four digits. -/
theorem leads_control {isName : Bool} {read : List Char} {c : Char} (h : c.toNat < 0x20) :
    Leads (.string isName read .none) frames
      ['\\', 'u', '0', '0', hexDigit (c.toNat / 16), hexDigit c.toNat]
      (.string isName (c :: read) .none) frames := by
  have hlast : hexDigit c.toNat = hexDigit (c.toNat % 16) := by rw [hexDigit, hexDigit, Nat.mod_mod]
  have hchar : Char.ofNat (c.toNat / 16 * 16 + c.toNat % 16) = c := by
    rw [Nat.div_add_mod', Char.ofNat_toNat]
  have hend : Leads (.string isName read (.hex 1 (some (c.toNat / 16)) none)) frames
      [hexDigit (c.toNat % 16)]
      (.string isName (Char.ofNat (c.toNat / 16 * 16 + c.toNat % 16) :: read) .none) frames :=
    leads_lastHexDigit (Nat.mod_lt _ (by decide)) (by omega)
  have hthird (p : Position) :
      step ⟨.string isName read (.hex 2 (some 0) none), frames, p⟩ (hexDigit (c.toNat / 16))
      = .ok ⟨.string isName read (.hex 1 (some (c.toNat / 16)) none), frames,
          p.behind (hexDigit (c.toNat / 16))⟩ := by
    rw [step_hexDigit (by omega) (by decide), Nat.zero_mul, Nat.zero_add]
  rw [hchar] at hend
  rw [hlast]
  -- the backslash, the `u` and two zeros
  refine .cons (fun p => rfl) (.cons (fun p => rfl) ?_)
  refine .cons (step_hexDigit (d := 0) (by decide) (by decide)) ?_
  exact .cons (step_hexDigit (d := 0) (by decide) (by decide)) (.cons hthird hend)

/-- **One character** is read back from the way it stands between quotes. -/
theorem leads_escape (isName : Bool) (read : List Char) (frames : List Frame) (c : Char) :
    Leads (.string isName read .none) frames (escape c) (.string isName (c :: read) .none)
      frames := by
  unfold escape
  split_ifs with hquote hbackslash hcontrol hn hr ht hb hf
  · subst hquote
    exact fun p => ⟨_, rfl⟩
  · subst hbackslash
    exact fun p => ⟨_, rfl⟩
  · subst hn
    exact fun p => ⟨_, rfl⟩
  · subst hr
    exact fun p => ⟨_, rfl⟩
  · subst ht
    exact fun p => ⟨_, rfl⟩
  · obtain rfl : c = Char.ofNat 8 := Char.ext hb
    exact fun p => ⟨_, rfl⟩
  · obtain rfl : c = Char.ofNat 12 := Char.ext hf
    exact fun p => ⟨_, rfl⟩
  · exact leads_control (UInt32.lt_iff_toNat_lt.mp hcontrol)
  · refine .cons (fun p => ?_) (.nil _ _)
    simp only [step, takeString, if_neg hquote, if_neg hbackslash, if_neg hcontrol, goOn]

theorem leads_escapes (isName : Bool) (read : List Char) (frames : List Frame) (cs : List Char) :
    Leads (.string isName read .none) frames (cs.flatMap escape)
      (.string isName (cs.reverse ++ read) .none) frames := by
  induction cs generalizing read with
  | nil => exact .nil _ _
  | cons c cs ih =>
    rw [List.flatMap_cons, List.reverse_cons, List.append_assoc]
    exact (leads_escape isName read frames c).append (ih (c :: read))

/-! ### Where a value begins and where it has ended -/

/-- Whether a value may begin. -/
def Awaits : Mode → Prop
  | .value | .firstItem | .nextItem => True
  | _ => False

/-- Where the reader is behind a value, which is handed to the innermost frame unless it is a number
that may go on. -/
inductive Behind (v : Json) (frames : List Frame) : Mode → List Frame → Prop where
  | complete : Behind v frames (complete v frames).1 (complete v frames).2
  | number {n : Numeral} {x : Number} (eq : v = .num x) (isComplete : n.isComplete = true)
    (value : n.value? = some x) : Behind v frames (.number n) frames

variable {mode mode' : Mode} {frames' : List Frame} {v : Json} {p : Position} {c : Char}

theorem step_of_awaits (h : Awaits mode) (hspace : isSpace c = false) (hbracket : c ≠ ']') :
    step ⟨mode, frames, p⟩ c = beginValue ⟨mode, frames, p⟩ c := by
  unfold step
  cases mode with
  | value => simp [hspace]
  | firstItem => simp [hspace, hbracket]
  | nextItem => simp [hspace, hbracket]
  | _ => cases h

/-- A character that goes on with no number is taken behind the value. -/
theorem Behind.step (h : Behind v frames mode' frames') (hc : isNumeric c = false) (hE : c ≠ 'E') :
    step ⟨mode', frames', p⟩ c =
      afterValue ⟨(Reader.complete v frames).1, (Reader.complete v frames).2, p⟩ c := by
  cases h with
  | complete =>
    cases frames with
    | nil => rfl
    | cons f rest => cases f <;> rfl
  | @number n x hv hcomplete hvalue =>
    subst hv
    simp only [Reader.step, Numeral.step_eq_over hcomplete hc hE, hvalue]

theorem Behind.finish (h : Behind v [] mode' frames') : finish ⟨mode', frames', p⟩ = .ok v := by
  cases h with
  | complete => rfl
  | @number n x hv hcomplete hvalue =>
    subst hv
    simp only [Reader.finish, hcomplete, hvalue]
    rfl

/-- A value is read when what it is written as leads behind it, wherever it may begin. -/
def Reads (v : Json) (frames : List Frame) : Prop :=
  ∀ mode, Awaits mode → ∃ mode' frames', Leads mode frames v.chars mode' frames' ∧
    Behind v frames mode' frames'

/-- A first character that says what comes, and the rest, which completes it. -/
theorem reads_cons {cs : List Char} (hchars : v.chars = c :: cs) (hspace : isSpace c = false)
    (hbracket : c ≠ ']')
    (hbegin : ∀ mode p, beginValue ⟨mode, frames, p⟩ c = .ok ⟨mode', frames', p.behind c⟩)
    (hrest : ∃ mode'' frames'', Leads mode' frames' cs mode'' frames'' ∧
      Behind v frames mode'' frames'') :
    Reads v frames := by
  obtain ⟨mode'', frames'', hleads, hbehind⟩ := hrest
  refine fun mode hmode => ⟨mode'', frames'', ?_, hbehind⟩
  rw [hchars]
  exact .cons (fun p => (step_of_awaits hmode hspace hbracket).trans (hbegin mode p)) hleads

/-! ### Values without parts -/

theorem reads_null : Reads .null frames :=
  reads_cons rfl rfl (by decide) (fun _ _ => rfl) ⟨_, _, fun p => ⟨_, rfl⟩, .complete⟩

theorem reads_bool (b : Bool) : Reads (.bool b) frames := by
  cases b with
  | true =>
    exact reads_cons rfl rfl (by decide) (fun _ _ => rfl) ⟨_, _, fun p => ⟨_, rfl⟩, .complete⟩
  | false =>
    exact reads_cons rfl rfl (by decide) (fun _ _ => rfl) ⟨_, _, fun p => ⟨_, rfl⟩, .complete⟩

theorem reads_num {x : Number} (h : x.Legible) : Reads (.num x) frames := by
  obtain ⟨m, hof, hcomplete, hvalue⟩ := h
  have hnumeric := isNumeric_of_mem_chars x
  cases hcs : x.chars with
  | nil =>
    rw [hcs] at hof
    cases hof
  | cons c cs =>
    rw [hcs] at hof hnumeric
    have hc : isNumeric c = true := hnumeric c List.mem_cons_self
    obtain ⟨n, hstart, htake⟩ := Option.bind_eq_some_iff.mp hof
    refine reads_cons hcs (isSpace_of_isNumeric hc) (ne_of_isNumeric hc (by decide))
      (fun mode p => ?_) ⟨_, _, leads_number htake frames, .number rfl hcomplete hvalue⟩
    rw [beginValue_of_isNumeric hc, hstart]
    rfl

theorem leads_quoted_tail (s : String) (frames : List Frame) :
    Leads (.string false [] .none) frames (s.toList.flatMap escape ++ ['"'])
      (complete (.str s) frames).1 (complete (.str s) frames).2 := by
  refine (leads_escapes false [] frames s.toList).append (.cons (fun p => ?_) (.nil _ _))
  simp [step, takeString, endString, finishWith, goOn]

theorem reads_str (s : String) : Reads (.str s) frames :=
  reads_cons rfl rfl (by decide) (fun _ _ => rfl) ⟨_, _, leads_quoted_tail s frames, .complete⟩

/-! ### Lists and objects -/

theorem itemsChars_cons (v : Json) (rest : List Json) :
    itemsChars (v :: rest) = v.chars ++ rest.flatMap fun w => ',' :: w.chars := by
  induction rest generalizing v with
  | nil => rw [itemsChars, List.flatMap_nil, List.append_nil]
  | cons w rest ih =>
    rw [itemsChars.eq_3 v (w :: rest) (List.cons_ne_nil w rest), ih, List.flatMap_cons,
      List.cons_append]

/-- A member as it is written. -/
def memberChars (e : String × Json) : List Char := quoted e.1 ++ ':' :: e.2.chars

theorem membersChars_cons (e : String × Json) (rest : List (String × Json)) :
    membersChars (e :: rest) = memberChars e ++ rest.flatMap fun e => ',' :: memberChars e := by
  induction rest generalizing e with
  | nil => rw [membersChars, List.flatMap_nil, List.append_nil, memberChars]
  | cons f rest ih =>
    have hcons : membersChars (e :: f :: rest) = memberChars e ++ ',' :: membersChars (f :: rest) :=
      membersChars.eq_3 e.1 e.2 (f :: rest) (List.cons_ne_nil f rest)
    rw [hcons, ih, List.flatMap_cons, List.cons_append]

/-- The rest of a list behind one of its elements. -/
theorem leads_items {done items : List Json}
    (hitems : ∀ w ∈ items, ∀ done, Reads w (.list done :: frames))
    (h : Behind v (.list done :: frames) mode frames') :
    Leads mode frames' (items.flatMap (fun w => ',' :: w.chars) ++ [']'])
      (complete (.arr ((v :: done).reverse ++ items)) frames).1
      (complete (.arr ((v :: done).reverse ++ items)) frames).2 := by
  induction items generalizing v done mode frames' with
  | nil =>
    rw [List.append_nil]
    exact .cons (fun p => h.step (by decide) (by decide)) (.nil _ _)
  | cons w items ih =>
    obtain ⟨hw, hrest⟩ := List.forall_mem_cons.mp hitems
    -- a comma, which settles where `v` ends, and then the next element
    obtain ⟨mode'', frames'', hleads, hbehind⟩ := hw (v :: done) .nextItem trivial
    have htail := ih hrest hbehind
    rw [List.reverse_cons, List.append_assoc] at htail
    rw [List.flatMap_cons, List.cons_append, List.cons_append, List.append_assoc]
    exact .cons (fun p => h.step (by decide) (by decide)) (hleads.append htail)

theorem reads_arr {items : List Json} (hroom : frames.length < maxDepth)
    (hitems : ∀ w ∈ items, ∀ done, Reads w (.list done :: frames)) : Reads (.arr items) frames := by
  have hbegin (mode : Mode) (p : Position) :
      beginValue ⟨mode, frames, p⟩ '[' = .ok ⟨.firstItem, .list [] :: frames, p.behind '['⟩ := by
    simp [beginValue, hroom, goOn]
  have hchars : (Json.arr items).chars = '[' :: (itemsChars items ++ [']']) := by
    rw [chars, List.cons_append]
  refine reads_cons hchars rfl (by decide) hbegin ⟨_, _, ?_, .complete⟩
  cases items with
  | nil => exact fun p => ⟨_, rfl⟩
  | cons w items =>
    obtain ⟨hw, hrest⟩ := List.forall_mem_cons.mp hitems
    obtain ⟨mode', frames', hleads, hbehind⟩ := hw [] .firstItem trivial
    rw [itemsChars_cons, List.append_assoc]
    exact hleads.append (leads_items hrest hbehind)

/-- A name and the colon behind it, where a name may begin. -/
theorem leads_name {members : List (String × Json)} {name : String} (k : String)
    (hmode : mode = .firstName ∨ mode = .nextName) :
    Leads mode (.object members name :: frames) (quoted k ++ [':']) .value
      (.object members k :: frames) := by
  have hquote (p : Position) : step ⟨mode, .object members name :: frames, p⟩ '"'
      = .ok ⟨.string true [] .none, .object members name :: frames, p.behind '"'⟩ := by
    rcases hmode with rfl | rfl <;> rfl
  have hend (p : Position) :
      step ⟨.string true (k.toList.reverse ++ []) .none, .object members name :: frames, p⟩ '"'
        = .ok ⟨.colon, .object members k :: frames, p.behind '"'⟩ := by
    simp [step, takeString, endString, goOn]
  rw [quoted, List.append_assoc, List.cons_append]
  exact .cons hquote
    ((leads_escapes true [] _ k.toList).append (.cons hend (.cons (fun p => rfl) (.nil _ _))))

/-- A member, where a name may begin. -/
theorem exists_leads_member (members : List (String × Json)) (name : String) {e : String × Json}
    (he : ∀ done, Reads e.2 (.object done e.1 :: frames))
    (hmode : mode = .firstName ∨ mode = .nextName) :
    ∃ mode' frames', Leads mode (.object members name :: frames) (memberChars e) mode' frames' ∧
      Behind e.2 (.object members e.1 :: frames) mode' frames' := by
  obtain ⟨mode', frames', hleads, hbehind⟩ := he members .value trivial
  have hmember :
      Leads mode (.object members name :: frames) (quoted e.1 ++ [':'] ++ e.2.chars)
        mode' frames' :=
    (leads_name e.1 hmode).append hleads
  rw [List.append_assoc] at hmember
  exact ⟨mode', frames', hmember, hbehind⟩

/-- The rest of an object behind one of its members. -/
theorem leads_members {done members : List (String × Json)} {k : String}
    (hmembers : ∀ e ∈ members, ∀ done, Reads e.2 (.object done e.1 :: frames))
    (h : Behind v (.object done k :: frames) mode frames') :
    Leads mode frames' (members.flatMap (fun e => ',' :: memberChars e) ++ ['\x7d'])
      (complete (.object (((k, v) :: done).reverse ++ members)) frames).1
      (complete (.object (((k, v) :: done).reverse ++ members)) frames).2 := by
  induction members generalizing k v done mode frames' with
  | nil =>
    rw [List.append_nil]
    exact .cons (fun p => h.step (by decide) (by decide)) (.nil _ _)
  | cons e members ih =>
    obtain ⟨he, hrest⟩ := List.forall_mem_cons.mp hmembers
    -- a comma, which settles where `v` ends, and then the next member
    obtain ⟨mode'', frames'', hleads, hbehind⟩ :=
      exists_leads_member ((k, v) :: done) k he (Or.inr rfl)
    have htail := ih hrest hbehind
    rw [List.reverse_cons, List.append_assoc] at htail
    rw [List.flatMap_cons, List.cons_append, List.cons_append, List.append_assoc]
    exact .cons (fun p => h.step (by decide) (by decide)) (hleads.append htail)

theorem reads_obj {members : List (String × Json)} (hroom : frames.length < maxDepth)
    (horder : Entries.Ascending members)
    (hmembers : ∀ e ∈ members, ∀ done, Reads e.2 (.object done e.1 :: frames)) :
    Reads (.obj members) frames := by
  have hbegin (mode : Mode) (p : Position) :
      beginValue ⟨mode, frames, p⟩ '\x7b' =
        .ok ⟨.firstName, .object [] "" :: frames, p.behind '\x7b'⟩ := by
    simp [beginValue, hroom, goOn]
  have hchars : (Json.obj members).chars = '\x7b' :: (membersChars members ++ ['\x7d']) := by
    rw [chars, List.cons_append]
  have hobject : Json.object members = .obj members := by
    rw [object, Entries.ofList_of_ascending horder]
  refine reads_cons hchars rfl (by decide) hbegin ⟨_, _, ?_, .complete⟩
  rw [← hobject]
  cases members with
  | nil => exact fun p => ⟨_, rfl⟩
  | cons e members =>
    obtain ⟨he, hrest⟩ := List.forall_mem_cons.mp hmembers
    obtain ⟨mode', frames', hleads, hbehind⟩ :=
      exists_leads_member [] "" he (Or.inl rfl)
    rw [membersChars_cons, List.append_assoc]
    exact hleads.append (leads_members hrest hbehind)

/-- **A printed value** is read wherever there is room for it. -/
theorem reads_of_within {n : Nat} (h : v.Within Number.Legible n)
    (hroom : frames.length + n ≤ maxDepth) :
    Reads v frames := by
  -- what is in a list or an object has one level less, and one frame more is open around it
  induction h generalizing frames with
  | null => exact reads_null
  | bool _ b => exact reads_bool b
  | num _ hx => exact reads_num hx
  | str _ s => exact reads_str s
  | arr _ ih =>
    refine reads_arr (by omega) fun w hw done => ih w hw ?_
    rw [List.length_cons]
    omega
  | obj horder _ ih =>
    refine reads_obj (by omega) horder fun e he done => ih e he ?_
    rw [List.length_cons]
    omega

end Reader

/-- **Printing and reading.**  A printed value is read back. -/
theorem parse_print_of_within {v : Json} (h : v.Within Number.Legible maxDepth) :
    parse v.print = .ok v := by
  have hreads : Reader.Reads v [] := Reader.reads_of_within h (Nat.le_of_eq (Nat.zero_add maxDepth))
  obtain ⟨mode, frames, hleads, hbehind⟩ := hreads .value trivial
  obtain ⟨p, hrun⟩ := hleads .start
  refine parse_print ?_
  rw [parseChars, hrun]
  exact hbehind.finish

/-! ### Values that were read -/

/-- Whether a value stands somewhere in another. -/
inductive Inside (a : Json) : Json → Prop where
  | self : Inside a a
  | item {v : Json} {items : List Json} (hv : v ∈ items) (h : Inside a v) : Inside a (.arr items)
  | member {e : String × Json} {members : List (String × Json)} (he : e ∈ members)
    (h : Inside a e.2) :
    Inside a (.obj members)

variable {P : Number → Prop} {v a : Json} {m n : Nat}

theorem Inside.trans {b : Json} (h : Inside a b) (hb : Inside b v) : Inside a v := by
  induction hb with
  | self => exact h
  | item hv _ ih => exact .item hv ih
  | member he _ ih => exact .member he ih

theorem inside_num_iff {x : Number} : Inside a (.num x) ↔ a = .num x := by
  constructor
  · rintro ⟨⟩
    rfl
  · rintro rfl
    exact .self

theorem inside_str_iff {s : String} : Inside a (.str s) ↔ a = .str s := by
  constructor
  · rintro ⟨⟩
    rfl
  · rintro rfl
    exact .self

theorem inside_arr_iff {items : List Json} :
    Inside a (.arr items) ↔ a = .arr items ∨ ∃ w ∈ items, Inside a w := by
  constructor
  · intro h
    cases h with
    | self => exact Or.inl rfl
    | item hv h => exact Or.inr ⟨_, hv, h⟩
  · rintro (rfl | ⟨w, hw, h⟩)
    · exact .self
    · exact .item hw h

theorem inside_obj_iff {members : List (String × Json)} :
    Inside a (.obj members) ↔ a = .obj members ∨ ∃ e ∈ members, Inside a e.2 := by
  constructor
  · intro h
    cases h with
    | self => exact Or.inl rfl
    | member he h => exact Or.inr ⟨_, he, h⟩
  · rintro (rfl | ⟨e, he, h⟩)
    · exact .self
    · exact .member he h

theorem inside_of_get? {name : String} (h : v.get? name = some a) : Inside a v := by
  cases v with
  | obj members =>
    obtain ⟨before, after, rfl, -⟩ := List.lookup_eq_some_iff.mp h
    exact .member (e := (name, a)) (by simp) .self
  | _ => cases h

theorem inside_of_item? {i : Nat} (h : v.item? i = some a) : Inside a v := by
  cases v with
  | arr items => exact .item (List.mem_of_getElem? h) .self
  | _ => cases h

theorem inside_member {name : String} (h : v.member name ≠ .null) : Inside (v.member name) v := by
  cases hv : v.get? name with
  | none =>
    rw [member, hv] at h
    exact absurd rfl h
  | some a =>
    rw [member, hv]
    exact inside_of_get? hv

theorem Within.mono (h : v.Within P n) (hle : n ≤ m) : v.Within P m := by
  induction h generalizing m with
  | null => exact .null m
  | bool _ b => exact .bool m b
  | num _ hx => exact .num m hx
  | str _ s => exact .str m s
  | @arr n items _ ih =>
    obtain ⟨k, rfl⟩ := Nat.exists_eq_add_of_le' (show 1 ≤ m by omega)
    exact .arr fun w hw => ih w hw (by omega)
  | @obj n members horder _ ih =>
    obtain ⟨k, rfl⟩ := Nat.exists_eq_add_of_le' (show 1 ≤ m by omega)
    exact .obj horder fun e he => ih e he (by omega)

/-- What stands in a value is nested no deeper. -/
theorem Within.of_inside (h : v.Within P n) (ha : Inside a v) : a.Within P n := by
  induction ha generalizing n with
  | self => exact h
  | item hv _ ih =>
    cases h with
    | arr hitems => exact (ih (hitems _ hv)).mono (Nat.le_succ _)
  | member he _ ih =>
    cases h with
    | obj _ hmembers => exact (ih (hmembers _ he)).mono (Nat.le_succ _)

/-- When the floats of a value with integers of 64 bits are read back, all its numbers are. -/
theorem Within.legible (h : v.Within Number.Ranged n)
    (hfloats : ∀ x, Inside (.num (.float x)) v →
      parse (Json.num (.float x)).print = .ok (.num (.float x))) :
    v.Within Number.Legible n := by
  induction h with
  | null n => exact .null n
  | bool n b => exact .bool n b
  | @num n x hx =>
    cases x with
    | int i => exact .num n (Number.legible_int hx)
    | float x => exact .num n (Number.legible_of_parse (hfloats x .self))
  | str n s => exact .str n s
  | arr _ ih => exact .arr fun w hw => ih w hw fun x hx => hfloats x (.item hw hx)
  | obj horder _ ih => exact .obj horder fun e he => ih e he fun x hx => hfloats x (.member he hx)

/-! ### Characters of a printed value -/

theorem space_le_of_isNumeric {c : Char} (h : isNumeric c = true) : ' ' ≤ c := by
  simp only [isNumeric, Char.isDigit, Bool.or_eq_true, Bool.and_eq_true, decide_eq_true_eq,
    beq_iff_eq] at h
  rcases h with (((⟨hlow, -⟩ | rfl) | rfl) | rfl) | rfl
  · exact UInt32.le_trans (by decide) hlow
  all_goals decide

theorem space_le_hexDigit (n : Nat) : ' ' ≤ hexDigit n := by
  have hall : ∀ d < 16, ' ' ≤ Nat.digitChar d := by decide
  exact hall _ (Nat.mod_lt n (by decide))

theorem space_le_of_mem_escape (c : Char) : ∀ d ∈ escape c, ' ' ≤ d := by
  unfold escape
  split_ifs with _ _ hcontrol
  · simp
  · simp
  · simp
  · simp
  · simp
  · simp
  · simp
  · simp only [List.forall_mem_cons]
    exact ⟨by decide, by decide, by decide, by decide, space_le_hexDigit _, space_le_hexDigit _,
      List.forall_mem_nil _⟩
  · exact List.forall_mem_cons.mpr ⟨UInt32.not_lt.mp hcontrol, List.forall_mem_nil _⟩

theorem space_le_of_mem_quoted (s : String) : ∀ c ∈ quoted s, ' ' ≤ c := by
  rw [quoted]
  simp only [List.cons_append, List.forall_mem_append, List.forall_mem_cons, List.mem_flatMap]
  refine ⟨by decide, ?_, by decide, List.forall_mem_nil _⟩
  rintro d ⟨c, -, hd⟩
  exact space_le_of_mem_escape c d hd

mutual

/-- No control character stands in a printed value. -/
theorem space_le_of_mem_chars : ∀ v : Json, ∀ c ∈ v.chars, ' ' ≤ c
  | .null => by simp [chars]
  | .bool true => by simp [chars]
  | .bool false => by simp [chars]
  | .num x => fun c hc => space_le_of_isNumeric (isNumeric_of_mem_chars x c hc)
  | .str s => space_le_of_mem_quoted s
  | .arr items => by
    rw [chars]
    simp only [List.cons_append, List.forall_mem_append, List.forall_mem_cons]
    exact ⟨by decide, space_le_of_mem_itemsChars items, by decide, List.forall_mem_nil _⟩
  | .obj members => by
    rw [chars]
    simp only [List.cons_append, List.forall_mem_append, List.forall_mem_cons]
    exact ⟨by decide, space_le_of_mem_membersChars members, by decide, List.forall_mem_nil _⟩

theorem space_le_of_mem_itemsChars : ∀ items : List Json, ∀ c ∈ itemsChars items, ' ' ≤ c
  | [] => List.forall_mem_nil _
  | [v] => space_le_of_mem_chars v
  | v :: w :: rest => by
    have hrest := space_le_of_mem_itemsChars (w :: rest)
    rw [itemsChars.eq_3 v (w :: rest) (List.cons_ne_nil w rest)]
    simp only [List.forall_mem_append, List.forall_mem_cons]
    exact ⟨space_le_of_mem_chars v, by decide, hrest⟩

theorem space_le_of_mem_membersChars :
    ∀ members : List (String × Json), ∀ c ∈ membersChars members, ' ' ≤ c
  | [] => List.forall_mem_nil _
  | [(k, v)] => by
    rw [membersChars]
    simp only [List.forall_mem_append, List.forall_mem_cons]
    exact ⟨space_le_of_mem_quoted k, by decide, space_le_of_mem_chars v⟩
  | (k, v) :: e :: rest => by
    have hrest := space_le_of_mem_membersChars (e :: rest)
    rw [membersChars.eq_3 k v (e :: rest) (List.cons_ne_nil e rest)]
    simp only [List.forall_mem_append, List.forall_mem_cons]
    exact ⟨⟨space_le_of_mem_quoted k, by decide, space_le_of_mem_chars v⟩, by decide, hrest⟩

end

end Json

end Parley
