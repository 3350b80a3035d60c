/-!
# Named entries

A list of entries under different names is kept in ascending order of name (`Ascending`), so that
equal collections are equal lists.  `put` and `erase` keep the order, `ofList` brings any list into
it, where the last entry of a name wins.

The names ascend by code point, which is also the order of their UTF-8 bytes.  `lookup_put` and
`lookup_erase` say what is found under a name afterwards.
-/

namespace Parley.Entries

variable {α : Type}

/-- Put an entry in its place, where it replaces one of the same name. -/
def put (name : String) (a : α) : List (String × α) → List (String × α)
  | [] => [(name, a)]
  | (k, b) :: rest =>
    if name < k then (name, a) :: (k, b) :: rest
    else if name = k then (name, a) :: rest
    else (k, b) :: put name a rest

/-- The entries without those of a name. -/
def erase (name : String) (es : List (String × α)) : List (String × α) := es.filter (·.1 != name)

/-- The entries in ascending order, the last of each name. -/
def ofList (es : List (String × α)) : List (String × α) :=
  es.foldl (fun done (k, a) => put k a done) []

/-- The names ascend strictly. -/
def Ascending (es : List (String × α)) : Prop := es.Pairwise (fun a b => a.1 < b.1)

/-! ### What is found -/

/-- The first entry answers for its own name alone. -/
theorem lookup_cons (name k : String) (a : α) (es : List (String × α)) :
    ((k, a) :: es).lookup name = if name = k then some a else es.lookup name := by
  by_cases h : name = k
  · simp [h]
  · rw [List.lookup_cons, beq_eq_false_iff_ne.2 h, if_neg h]

/-- What was put is found, and other names keep what they had. -/
theorem lookup_put (name k : String) (a : α) (es : List (String × α)) :
    (put name a es).lookup k = if k = name then some a else es.lookup k := by
  induction es with
  | nil => rw [put, lookup_cons]
  | cons e es ih =>
    obtain ⟨j, b⟩ := e
    rw [put]
    split
    · rw [lookup_cons]
    · split
      · next hj =>
        subst hj
        rw [lookup_cons, lookup_cons]
        split <;> rfl
      · next hj =>
        rw [lookup_cons, ih, lookup_cons]
        by_cases h : k = name
        · rw [if_neg (h ▸ hj), if_pos h, if_pos h]
        · rw [if_neg h, if_neg h]

/-- What was erased is not found, and other names keep what they had. -/
theorem lookup_erase (name k : String) (es : List (String × α)) :
    (erase name es).lookup k = if k = name then none else es.lookup k := by
  induction es with
  | nil => simp [erase]
  | cons e es ih =>
    obtain ⟨j, b⟩ := e
    rw [erase] at ih
    rw [erase, List.filter_cons, lookup_cons]
    by_cases hj : j = name
    · subst hj
      rw [if_neg (by simp), ih]
      split <;> rfl
    · rw [if_pos (by simpa using hj), lookup_cons, ih]
      by_cases h : k = name
      · rw [if_neg (h ▸ fun hn => hj hn.symm), if_pos h, if_pos h]
      · rw [if_neg h, if_neg h]

/-! ### The order -/

/-- A name that is not before another and differs from it is behind it. -/
theorem lt_of_not_lt_of_ne {a b : String} (h : ¬ a < b) (hne : a ≠ b) : b < a :=
  String.not_le.1 fun hle => hne (String.le_antisymm hle (String.not_lt.1 h))

/-- An entry that is put comes behind everything that it comes behind by name. -/
theorem forall_mem_put {P : String → Prop} {name : String} {a : α} {es : List (String × α)}
    (h : ∀ e ∈ es, P e.1) (hn : P name) : ∀ e ∈ put name a es, P e.1 := by
  induction es with
  | nil => simpa [put] using hn
  | cons e es ih =>
    obtain ⟨k, b⟩ := e
    rw [List.forall_mem_cons] at h
    rw [put]
    split
    · simpa [hn] using h
    · split
      · simpa [hn] using h.2
      · simpa [h.1] using ih h.2

/-- Putting an entry keeps the order. -/
theorem ascending_put (name : String) (a : α) {es : List (String × α)} (h : Ascending es) :
    Ascending (put name a es) := by
  induction es with
  | nil => simp [put, Ascending]
  | cons e es ih =>
    obtain ⟨k, b⟩ := e
    rw [Ascending, List.pairwise_cons] at h
    rw [put]
    split
    · next hlt =>
      rw [Ascending, List.pairwise_cons]
      refine ⟨?_, List.pairwise_cons.2 h⟩
      rw [List.forall_mem_cons]
      exact ⟨hlt, fun e he => String.lt_trans hlt (h.1 e he)⟩
    · split
      · next heq =>
        subst heq
        exact List.pairwise_cons.2 h
      · next hlt hne =>
        rw [Ascending, List.pairwise_cons]
        exact ⟨forall_mem_put h.1 (lt_of_not_lt_of_ne hlt hne), ih h.2⟩

/-- What is found under a name is one of the entries. -/
theorem mem_of_lookup {name : String} {a : α} {es : List (String × α)}
    (h : es.lookup name = some a) :
    (name, a) ∈ es := by
  obtain ⟨before, behind, rfl, -⟩ := List.lookup_eq_some_iff.mp h
  exact List.mem_append_right before List.mem_cons_self

/-- In order, each entry is found under its name. -/
theorem lookup_of_mem {name : String} {a : α} {es : List (String × α)} (hes : Ascending es)
    (h : (name, a) ∈ es) : es.lookup name = some a := by
  obtain ⟨before, behind, rfl⟩ := List.append_of_mem h
  refine List.lookup_eq_some_iff.mpr ⟨before, behind, rfl, fun e he => ?_⟩
  have hlt : e.1 < name := (List.pairwise_append.mp hes).2.2 e he (name, a) List.mem_cons_self
  exact bne_iff_ne.mpr (String.ne_of_lt hlt).symm

/-- Putting what is there already changes nothing. -/
theorem put_of_lookup {name : String} {a : α} {es : List (String × α)} (hes : Ascending es)
    (h : es.lookup name = some a) : put name a es = es := by
  induction es with
  | nil => cases h
  | cons e es ih =>
    obtain ⟨k, b⟩ := e
    obtain ⟨hfirst, hes⟩ := List.pairwise_cons.mp hes
    rw [put]
    split
    · next hlt =>
      -- the name would have to stand behind one that it comes before
      have hmem : (name, a) ∈ (k, b) :: es := mem_of_lookup h
      obtain heq | hmem := List.mem_cons.mp hmem
      · exact absurd hlt (by rw [(Prod.mk.inj heq).1]; exact String.lt_irrefl k)
      · exact absurd (hfirst _ hmem) (String.lt_asymm hlt)
    · split
      · next heq =>
        rw [lookup_cons, if_pos heq] at h
        rw [heq, Option.some.inj h]
      · next hne =>
        rw [lookup_cons, if_neg hne] at h
        rw [ih hes h]

/-- Erasing a name keeps the order. -/
theorem ascending_erase (name : String) {es : List (String × α)} (h : Ascending es) :
    Ascending (erase name es) := List.Pairwise.filter _ h

/-- A list that was brought into order is in order. -/
theorem ascending_ofList (es : List (String × α)) : Ascending (ofList es) := by
  have go (done : List (String × α)) (h : Ascending done) :
      Ascending (es.foldl (fun done (k, a) => put k a done) done) := by
    induction es generalizing done with
    | nil => exact h
    | cons e es ih => exact ih _ (ascending_put _ _ h)
  exact go [] List.Pairwise.nil

end Parley.Entries
