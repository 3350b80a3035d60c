import Mathlib.Order.Bounds.Defs
import Parley.Proofs.Chat.CallIds

/-!
# What becomes of ids that do not serve

An id serves as it is when it is not empty and comes for the first time (`Serves`).  Unique ids keep
such ids wherever they stand.  Any other call gets the first substitute for its position that is
neither a kept id of the whole message nor an id given to an earlier call (`ids_first_free`).

The calls are flagged before any id is assigned (`getElem?_flagged`), so that an id further down the
list is out of the question already when a substitute is looked for.  The ids that an assignment
finds taken are the ones that it began with and the ones of the calls before
(`exists_getElem?_assignIds`).
-/

namespace Parley.Chat.Message

/-- Whether the id of the call at a position serves as it is: it is not empty, and no call before
has it. -/
def Serves (calls : List ToolCall) (i : Nat) : Prop :=
  ∃ call, calls[i]? = some call ∧ call.id ≠ "" ∧ call.id ∉ (calls.take i).map (·.id)

/-! ### Flags -/

/-- A call is flagged by its id and the ids before it. -/
theorem getElem?_flagged (seen : List String) (calls : List ToolCall) (i : Nat) :
    (flagged seen calls)[i]? = calls[i]?.map fun call =>
      (call, decide (call.id ≠ "" ∧ call.id ∉ seen ∧ call.id ∉ (calls.take i).map (·.id))) := by
  induction calls generalizing seen i with
  | nil => rfl
  | cons head rest ih =>
    rw [flagged_cons]
    split
    · rename_i hdrop
      simp only [Bool.or_eq_true, String.isEmpty_iff, List.contains_iff_mem] at hdrop
      cases i with
      | zero => simpa using hdrop.resolve_left
      | succ i =>
        -- an id that is dropped makes no difference to the ones behind it
        have hsame : ∀ call : ToolCall,
            (call.id ≠ "" ∧ call.id ∉ seen ∧ call.id ∉ (rest.take i).map (·.id)) ↔
            call.id ≠ "" ∧ call.id ∉ seen ∧ call.id ∉ ((head :: rest).take (i + 1)).map (·.id) := by
          intro call
          rw [List.take_succ_cons, List.map_cons, List.mem_cons, not_or]
          refine and_congr_right fun hne => and_congr_right fun hseen => (and_iff_right ?_).symm
          intro heq
          rw [← heq] at hdrop
          exact hdrop.elim hne hseen
        rw [List.getElem?_cons_succ, ih, List.getElem?_cons_succ]
        simp only [hsame]
    · rename_i hkeep
      simp only [Bool.or_eq_true, String.isEmpty_iff, List.contains_iff_mem, not_or] at hkeep
      cases i with
      | zero => simp [hkeep]
      | succ i =>
        have hsame : ∀ call : ToolCall,
            (call.id ≠ "" ∧ call.id ∉ head.id :: seen ∧ call.id ∉ (rest.take i).map (·.id)) ↔
              call.id ≠ "" ∧ call.id ∉ seen ∧
              call.id ∉ ((head :: rest).take (i + 1)).map (·.id) := by
          intro call
          rw [List.take_succ_cons, List.map_cons, List.mem_cons, List.mem_cons, not_or, not_or]
          exact and_congr_right fun _ => and_assoc.trans and_left_comm
        rw [List.getElem?_cons_succ, ih, List.getElem?_cons_succ]
        simp only [hsame]

theorem getElem?_flagged_eq_true_iff {calls : List ToolCall} {i : Nat} {call : ToolCall} :
    (flagged [] calls)[i]? = some (call, true) ↔ calls[i]? = some call ∧ Serves calls i := by
  rw [getElem?_flagged, Option.map_eq_some_iff]
  constructor
  · rintro ⟨call', hcall, heq⟩
    obtain ⟨rfl, hflag⟩ := Prod.mk.inj heq
    obtain ⟨hne, -, hfirst⟩ := of_decide_eq_true hflag
    exact ⟨hcall, call', hcall, hne, hfirst⟩
  · rintro ⟨hcall, call', hcall', hne, hfirst⟩
    obtain rfl := Option.some.inj (hcall.symm.trans hcall')
    exact ⟨call, hcall, Prod.mk.injEq .. ▸ ⟨rfl, decide_eq_true ⟨hne, List.not_mem_nil, hfirst⟩⟩⟩

theorem getElem?_flagged_of_not_serves {calls : List ToolCall} {i : Nat} {call : ToolCall}
    (hcall : calls[i]? = some call) (h : ¬ Serves calls i) :
    (flagged [] calls)[i]? = some (call, false) := by
  rw [getElem?_flagged, hcall, Option.map_some, Option.some_inj, Prod.mk.injEq]
  exact ⟨rfl, decide_eq_false fun ⟨hne, _, hfirst⟩ => h ⟨call, hcall, hne, hfirst⟩⟩

/-- The kept ids of a message are the ids that serve. -/
theorem mem_keptIds_iff {calls : List ToolCall} {id : String} :
    id ∈ keptIds (flagged [] calls) ↔ ∃ j call, Serves calls j ∧ calls[j]? = some call ∧
    call.id = id := by
  rw [keptIds, List.mem_map]
  constructor
  · rintro ⟨⟨call, kept⟩, hmem, rfl⟩
    obtain ⟨hmem, rfl⟩ := List.mem_filter.mp hmem
    obtain ⟨j, hj⟩ := List.mem_iff_getElem?.mp hmem
    obtain ⟨hcall, hserves⟩ := getElem?_flagged_eq_true_iff.mp hj
    exact ⟨j, call, hserves, hcall, rfl⟩
  · rintro ⟨j, call, hserves, hcall, rfl⟩
    have hmem := List.mem_iff_getElem?.mpr ⟨j, getElem?_flagged_eq_true_iff.mpr ⟨hcall, hserves⟩⟩
    exact ⟨(call, true), List.mem_filter.mpr ⟨hmem, rfl⟩, rfl⟩

/-! ### Assigned ids -/

section

variable {taken : List String} {position i : Nat} {flagged : List (ToolCall × Bool)}
    {call : ToolCall}

theorem getElem?_assignIds_of_kept (h : flagged[i]? = some (call, true)) :
    (assignIds taken position flagged)[i]? = some call := by
  induction flagged generalizing taken position i with
  | nil => cases h
  | cons head rest ih =>
    obtain ⟨first, kept⟩ := head
    cases i with
    | zero =>
      cases h
      rfl
    | succ i => cases kept <;> exact ih h

/-- Of the substitutes for its position a call gets the first one that is not taken and has not been
given to a call before it. -/
theorem exists_getElem?_assignIds (taken : List String) (position : Nat)
    (htaken : keptIds flagged ⊆ taken) (h : flagged[i]? = some (call, false)) :
    ∃ k, (assignIds taken position flagged)[i]? =
      some { call with id := substitute (position + i) k } ∧
      IsLeast {k | substitute (position + i) k ∉
        taken ++ ((assignIds taken position flagged).take i).map (·.id)} k := by
  induction flagged generalizing taken position i with
  | nil => cases h
  | cons head rest ih =>
    obtain ⟨first, kept⟩ := head
    cases i with
    | zero =>
      cases h
      obtain ⟨k, hk, hfree, hbefore⟩ := freshId_spec taken position
      rw [List.take_zero, List.map_nil, List.append_nil]
      refine ⟨k, by rw [assignIds, hk]; rfl, hfree, fun j hj => ?_⟩
      by_contra hlt
      exact hj (hbefore j (Nat.lt_of_not_le hlt))
    | succ i =>
      have hposition : position + (i + 1) = position + 1 + i := by omega
      rw [hposition]
      cases kept with
      | true =>
        rw [keptIds_cons_true] at htaken
        obtain ⟨k, hk, hleast⟩ :=
          ih taken (position + 1) (fun id hid => htaken (List.mem_cons_of_mem _ hid)) h
        -- the kept id of the first call is taken from the beginning
        have hsame : ∀ id, id ∈ taken ++ ((assignIds taken (position + 1) rest).take i).map (·.id) ↔
            id ∈ taken ++ ((assignIds taken position ((first, true) :: rest)).take (i + 1)).map
              (·.id) := by
          intro id
          have hfirst : id = first.id → id ∈ taken := fun heq => heq ▸ htaken List.mem_cons_self
          rw [assignIds, List.take_succ_cons, List.map_cons, List.mem_append, List.mem_append,
            List.mem_cons]
          tauto
        simp only [hsame] at hleast
        exact ⟨k, hk, hleast⟩
      | false =>
        rw [keptIds_cons_false] at htaken
        obtain ⟨k, hk, hleast⟩ := ih (freshId taken position :: taken) (position + 1)
          (fun id hid => List.mem_cons_of_mem _ (htaken hid)) h
        have hsame : ∀ id, id ∈ freshId taken position :: taken ++
              ((assignIds (freshId taken position :: taken) (position + 1) rest).take i).map
                (·.id) ↔
            id ∈ taken ++ ((assignIds taken position ((first, false) :: rest)).take (i + 1)).map
              (·.id) := by
          intro id
          rw [assignIds, List.take_succ_cons, List.map_cons, List.cons_append, List.mem_cons,
            List.mem_append, List.mem_append, List.mem_cons]
          tauto
        simp only [hsame] at hleast
        exact ⟨k, hk, hleast⟩

end

/-! ### Messages -/

/-- Whether an id is out of the question for the call at a position: it is kept somewhere in the
message, or it has been given to an earlier call. -/
def IsTaken (m : Message) (i : Nat) (id : String) : Prop :=
  (∃ j call, Serves m.toolCalls j ∧ m.toolCalls[j]? = some call ∧ call.id = id) ∨
    ∃ j < i, ∃ call, m.normalizeIds.toolCalls[j]? = some call ∧ call.id = id

theorem isTaken_iff {m : Message} {i : Nat} {id : String} : IsTaken m i id ↔
    id ∈ keptIds (flagged [] m.toolCalls) ++ (m.normalizeIds.toolCalls.take i).map (·.id) := by
  rw [IsTaken, List.mem_append, mem_keptIds_iff, List.mem_map]
  refine or_congr_right ⟨?_, ?_⟩
  · rintro ⟨j, hj, call, hcall, hid⟩
    exact ⟨call, List.mem_iff_getElem?.mpr ⟨j, by rw [List.getElem?_take_of_lt hj, hcall]⟩, hid⟩
  · rintro ⟨call, hmem, hid⟩
    obtain ⟨j, hj⟩ := List.mem_iff_getElem?.mp hmem
    rw [List.getElem?_take] at hj
    split at hj
    · rename_i hlt
      exact ⟨j, hlt, call, hj, hid⟩
    · cases hj

/-- **First free ids.**  After `normalizeIds` every call has an id that is not empty and its own,
and nothing else has changed.  An id that serves is kept where it stands.  Any other call has the
first substitute for its position that is neither kept anywhere in the message nor given to an
earlier call.  A second run changes nothing. -/
theorem ids_first_free (m : Message) :
    HasUniqueIds m.normalizeIds.toolCalls ∧ SameButIds m m.normalizeIds ∧
      (∀ i, Serves m.toolCalls i → m.normalizeIds.toolCalls[i]? = m.toolCalls[i]?) ∧
      (∀ i call, m.toolCalls[i]? = some call → ¬ Serves m.toolCalls i →
        ∃ k, m.normalizeIds.toolCalls[i]? = some { call with id := substitute i k } ∧
          IsLeast {k | ¬ IsTaken m i (substitute i k)} k) ∧
      m.normalizeIds.normalizeIds = m.normalizeIds := by
  have hassigned : m.normalizeIds.toolCalls =
      assignIds (keptIds (flagged [] m.toolCalls)) 0 (flagged [] m.toolCalls) :=
    uniqueIds_eq_assignIds m.toolCalls
  refine ⟨uniqueIds_hasUniqueIds m.toolCalls, sameButIds_normalizeIds m, ?_, ?_,
    normalizeIds_normalizeIds m⟩
  · intro i hserves
    obtain ⟨call, hcall, -⟩ := id hserves
    rw [hassigned, hcall]
    exact getElem?_assignIds_of_kept (getElem?_flagged_eq_true_iff.mpr ⟨hcall, hserves⟩)
  · intro i call hcall hserves
    have hleast := exists_getElem?_assignIds _ 0 (List.Subset.refl _)
      (getElem?_flagged_of_not_serves hcall hserves)
    rw [← hassigned] at hleast
    simpa only [Nat.zero_add, isTaken_iff] using hleast

/-- A message in which the last call repeats an id that the first one has, and the call between them
has none.  The substitute for it is taken. -/
def repeating : Message :=
  { role := .assistant, toolCalls := [⟨"call_1", "a", "{}"⟩, ⟨"", "b", "{}"⟩,
    ⟨"call_1", "c", "{}"⟩] }

/-- The second call gets the second substitute for its position. -/
theorem ids_first_free_repeating :
    Serves repeating.toolCalls 0 ∧ ¬ Serves repeating.toolCalls 1 ∧
      repeating.normalizeIds.toolCalls[0]? = some ⟨"call_1", "a", "{}"⟩ ∧
      repeating.normalizeIds.toolCalls[1]? = some ⟨"call_1_1", "b", "{}"⟩ ∧
      IsLeast {k | ¬ IsTaken repeating 1 (substitute 1 k)} 1 := by
  have hfirst : Serves repeating.toolCalls 0 := ⟨_, rfl, by decide, by decide⟩
  have hsecond : ¬ Serves repeating.toolCalls 1 := by
    rintro ⟨call, hcall, hne, -⟩
    cases hcall
    exact hne rfl
  obtain ⟨-, -, hkept, hreplaced, -⟩ := ids_first_free repeating
  obtain ⟨k, hk, hleast⟩ := hreplaced 1 _ rfl hsecond
  have hid : repeating.normalizeIds.toolCalls[1]? = some ⟨substitute 1 1, "b", "{}"⟩ := by
    decide +kernel
  rw [hid, Option.some_inj, ToolCall.mk.injEq] at hk
  obtain rfl : 1 = k := substitute_injective 1 hk.1
  exact ⟨hfirst, hsecond, hkept 0 hfirst, hid, hleast⟩

end Parley.Chat.Message
