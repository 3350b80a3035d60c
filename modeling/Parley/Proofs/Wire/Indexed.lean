import Mathlib.Data.List.Nodup
import Mathlib.Data.List.Range

/-!
# Entries by index

What comes in parts that name an index is collected in entries whose indices ascend (`Ascending`).
An entry grows by one part at a time (`collect`), and `lookup_collect` says that what stands at an
index depends on the parts for that index only.  Ascending entries are known by what is found at
each index (`eq_of_lookup`), so the order in which parts of different indices come has no influence
on the entries.
-/

namespace Parley.Wire.Indexed

variable {α β : Type} {es es' : List (Nat × α)}

/-- Whether the indices ascend strictly. -/
def Ascending (es : List (Nat × α)) : Prop := es.Pairwise fun a b => a.1 < b.1

theorem ascending_nil : Ascending ([] : List (Nat × α)) := .nil

/-! ### What is found -/

theorem lookup_cons (k i : Nat) (a : α) (es : List (Nat × α)) :
    ((i, a) :: es).lookup k = if k = i then some a else es.lookup k := by
  by_cases h : k = i
  · simp [h]
  · rw [List.lookup_cons, beq_eq_false_iff_ne.mpr h, if_neg h]

theorem lookup_eq_none {k : Nat} (h : ∀ e ∈ es, k < e.1) : es.lookup k = none := by
  rw [List.lookup_eq_none_iff]
  intro e he
  exact bne_iff_ne.mpr (Nat.ne_of_lt (h e he))

theorem mem_iff_lookup (h : Ascending es) {i : Nat} {a : α} :
    (i, a) ∈ es ↔ es.lookup i = some a := by
  induction es with
  | nil => simp
  | cons e es ih =>
    obtain ⟨j, b⟩ := e
    obtain ⟨hfirst, hrest⟩ := List.pairwise_cons.mp h
    rw [List.mem_cons, ih hrest, lookup_cons]
    by_cases hij : i = j
    · subst hij
      -- nothing else stands at the first index
      rw [lookup_eq_none hfirst, if_pos rfl]
      simp [eq_comm]
    · simp [hij]

theorem Ascending.nodup (h : Ascending es) : es.Nodup := by
  refine h.imp ?_
  rintro a b hlt rfl
  exact Nat.lt_irrefl _ hlt

/-- **Extensionality.**  Ascending entries are known by what is found at each index. -/
theorem eq_of_lookup (h : Ascending es) (h' : Ascending es')
    (heq : ∀ i, es.lookup i = es'.lookup i) :
    es = es' := by
  have hperm : es.Perm es' := by
    rw [List.perm_ext_iff_of_nodup h.nodup h'.nodup]
    rintro ⟨i, a⟩
    rw [mem_iff_lookup h, mem_iff_lookup h', heq]
  refine hperm.eq_of_pairwise ?_ h h'
  intro a b _ _ hab hba
  exact absurd hab (Nat.lt_asymm hba)

theorem lookup_map_range (f : Nat → α) (n k : Nat) :
    ((List.range n).map fun i => (i, f i)).lookup k = if k < n then some (f k) else none := by
  induction n with
  | zero => rfl
  | succ n ih =>
    rw [List.range_succ, List.map_append, List.lookup_append, ih, List.map_singleton, lookup_cons]
    by_cases hk : k < n
    · rw [if_pos hk, if_pos (Nat.lt_succ_of_lt hk), Option.some_or]
    · rw [if_neg hk, Option.none_or]
      by_cases hkn : k = n
      · subst hkn
        rw [if_pos rfl, if_pos (Nat.lt_succ_self k)]
      · rw [if_neg hkn, if_neg (by omega)]
        rfl

/-- Entries without gaps. -/
theorem eq_map_range (h : Ascending es) {n : Nat} {f : Nat → α}
    (hlookup : ∀ i, es.lookup i = if i < n then some (f i) else none) :
    es = (List.range n).map fun i => (i, f i) := by
  have hrange : Ascending ((List.range n).map fun i => (i, f i)) := by
    rw [Ascending, List.pairwise_map]
    exact List.pairwise_lt_range
  refine eq_of_lookup h hrange fun i => ?_
  rw [hlookup, lookup_map_range]

theorem ascending_zipIdx (f : β → α) (bs : List β) :
    Ascending (bs.zipIdx.map fun (b, i) => (i, f b)) := by
  have hrange : (bs.zipIdx.map Prod.snd).Pairwise (· < ·) := by
    rw [List.zipIdx_map_snd]
    exact List.pairwise_lt_range' 1
  rw [Ascending, List.pairwise_map]
  exact List.pairwise_map.mp hrange

/-! ### Putting an entry in its place -/

/-- Put an entry at its index, where it replaces another. -/
def putAt (index : Nat) (a : α) : List (Nat × α) → List (Nat × α)
  | [] => [(index, a)]
  | (i, b) :: rest =>
    if index < i then (index, a) :: (i, b) :: rest
    else if index = i then (index, a) :: rest
    else (i, b) :: putAt index a rest

theorem lookup_putAt (index : Nat) (a : α) (es : List (Nat × α)) (k : Nat) :
    (putAt index a es).lookup k = if k = index then some a else es.lookup k := by
  induction es with
  | nil => exact lookup_cons k index a []
  | cons e es ih =>
    obtain ⟨i, b⟩ := e
    rw [putAt]
    by_cases hlt : index < i
    · rw [if_pos hlt, lookup_cons]
    · rw [if_neg hlt]
      by_cases heq : index = i
      · subst heq
        rw [if_pos rfl, lookup_cons, lookup_cons]
        split_ifs <;> rfl
      · rw [if_neg heq, lookup_cons, ih, lookup_cons]
        by_cases hk : k = index
        · rw [if_neg (hk ▸ heq), if_pos hk, if_pos hk]
        · rw [if_neg hk, if_neg hk]

theorem lt_of_mem_putAt {k index : Nat} {a : α} (h : ∀ e ∈ es, k < e.1) (hk : k < index) :
    ∀ e ∈ putAt index a es, k < e.1 := by
  induction es with
  | nil => simpa [putAt] using hk
  | cons e es ih =>
    obtain ⟨i, b⟩ := e
    obtain ⟨hi, hes⟩ := List.forall_mem_cons.mp h
    rw [putAt]
    split_ifs
    · exact List.forall_mem_cons.mpr ⟨hk, h⟩
    · exact List.forall_mem_cons.mpr ⟨hk, hes⟩
    · exact List.forall_mem_cons.mpr ⟨hi, ih hes⟩

theorem Ascending.putAt (h : Ascending es) (index : Nat) (a : α) :
    Ascending (Indexed.putAt index a es) := by
  induction es with
  | nil => exact List.pairwise_singleton _ _
  | cons e es ih =>
    obtain ⟨i, b⟩ := e
    obtain ⟨hfirst, hrest⟩ := List.pairwise_cons.mp h
    rw [Indexed.putAt]
    split_ifs with hlt heq
    · refine List.pairwise_cons.mpr ⟨List.forall_mem_cons.mpr ⟨hlt, ?_⟩, h⟩
      intro e he
      exact Nat.lt_trans hlt (hfirst e he)
    · subst heq
      exact List.pairwise_cons.mpr ⟨hfirst, hrest⟩
    · exact List.pairwise_cons.mpr ⟨lt_of_mem_putAt hfirst (by omega), ih hrest⟩

/-! ### Collecting parts -/

/-- The entries that come of parts, each of which lets the entry at its index begin or grow. -/
def collect (grow : Option α → β → α) (es : List (Nat × α)) (parts : List (Nat × β)) :
    List (Nat × α) :=
  parts.foldl (fun es part => putAt part.1 (grow (es.lookup part.1) part.2) es) es

/-- What comes of the parts for one index. -/
def grown (grow : Option α → β → α) (a? : Option α) (parts : List β) : Option α :=
  parts.foldl (fun a? part => some (grow a? part)) a?

/-- The parts for an index, in order. -/
def partsAt (i : Nat) (parts : List (Nat × β)) : List β :=
  parts.filterMap fun part => if part.1 = i then some part.2 else none

theorem partsAt_append (i : Nat) (parts more : List (Nat × β)) :
    partsAt i (parts ++ more) = partsAt i parts ++ partsAt i more := List.filterMap_append

theorem partsAt_cons_self (i : Nat) (part : β) (parts : List (Nat × β)) :
    partsAt i ((i, part) :: parts) = part :: partsAt i parts := by
  simp [partsAt]

theorem partsAt_cons_of_ne {i j : Nat} (h : j ≠ i) (part : β) (parts : List (Nat × β)) :
    partsAt i ((j, part) :: parts) = partsAt i parts := by
  simp [partsAt, h]

theorem collect_append (grow : Option α → β → α) (es : List (Nat × α))
    (parts more : List (Nat × β)) :
    collect grow es (parts ++ more) = collect grow (collect grow es parts) more := List.foldl_append

theorem Ascending.collect (h : Ascending es) (grow : Option α → β → α) (parts : List (Nat × β)) :
    Ascending (Indexed.collect grow es parts) := by
  induction parts generalizing es with
  | nil => exact h
  | cons part parts ih => exact ih (h.putAt _ _)

/-- **Interleaving.**  What stands at an index depends on the parts for that index, and not on how
the parts for others come between them. -/
theorem lookup_collect (grow : Option α → β → α) (es : List (Nat × α))
    (parts : List (Nat × β)) (i : Nat) :
    (collect grow es parts).lookup i = grown grow (es.lookup i) (partsAt i parts) := by
  induction parts generalizing es with
  | nil => rfl
  | cons part parts ih =>
    obtain ⟨j, part⟩ := part
    show (collect grow (putAt j (grow (es.lookup j) part) es) parts).lookup i = _
    rw [ih, lookup_putAt]
    by_cases hj : j = i
    · subst hj
      rw [if_pos rfl, partsAt_cons_self]
      rfl
    · rw [if_neg (Ne.symm hj), partsAt_cons_of_ne hj]

/-- Parts that come in ascending order, one for each index, are the beginnings of the entries. -/
theorem collect_of_ascending (grow : Option α → β → α) {parts : List (Nat × β)}
    (h : Ascending parts) :
    collect grow [] parts = parts.map fun part => (part.1, grow none part.2) := by
  have hmap : Ascending (parts.map fun part => (part.1, grow none part.2)) := by
    rw [Ascending, List.pairwise_map]
    exact h
  refine eq_of_lookup (ascending_nil.collect grow parts) hmap fun i => ?_
  rw [lookup_collect, List.lookup_nil]
  clear hmap
  induction parts with
  | nil => rfl
  | cons part parts ih =>
    obtain ⟨j, b⟩ := part
    obtain ⟨hfirst, hrest⟩ := List.pairwise_cons.mp h
    rw [List.map_cons, lookup_cons]
    by_cases hj : i = j
    · subst hj
      -- no other part has the first index
      have hnone : partsAt i parts = [] := by
        rw [partsAt, List.filterMap_eq_nil_iff]
        intro part hpart
        exact if_neg (Nat.ne_of_gt (hfirst part hpart))
      rw [partsAt_cons_self, hnone, if_pos rfl]
      rfl
    · rw [partsAt_cons_of_ne (Ne.symm hj), if_neg hj, ih hrest]

end Parley.Wire.Indexed
