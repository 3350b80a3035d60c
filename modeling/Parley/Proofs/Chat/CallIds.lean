import Mathlib.Data.List.Nodup
import Mathlib.Data.List.Perm.Subperm
import Parley.Chat.Message

/-!
# Unique call ids

* `uniqueIds_hasUniqueIds`: after `uniqueIds` every call has an id that is not empty, and no two
  calls share one.
* `uniqueIds_eq_self`: calls with such ids stay as they are, so that `normalizeIds` changes nothing
  the second time (`normalizeIds_normalizeIds`).
* `sameButIds_normalizeIds`: nothing but ids of calls is ever changed.

The search for a substitute ends because the substitutes for one position differ
(`substitute_injective`): of `taken.length + 1` of them one is free (`freshId_not_mem`).
-/

namespace Parley.Chat.Message

/-! ### Substitutes -/

theorem substitute_zero (position : Nat) : substitute position 0 = "call_" ++ toString position :=
  rfl

theorem substitute_succ (position n : Nat) :
    substitute position (n + 1) = "call_" ++ toString position ++ ("_" ++ toString (n + 1)) := by
  rw [← String.append_assoc]
  rfl

theorem substitute_ne_empty (position n : Nat) : substitute position n ≠ "" := by
  intro h
  have hlength := congrArg String.length h
  cases n with
  | zero => rw [substitute_zero, String.length_append] at hlength; simp at hlength
  | succ n =>
    rw [substitute_succ, String.length_append, String.length_append] at hlength
    simp at hlength

/-- The substitutes for one position differ. -/
theorem substitute_injective (position : Nat) : Function.Injective (substitute position) := by
  intro m n h
  cases m with
  | zero =>
    cases n with
    | zero => rfl
    | succ n =>
      -- only the first substitute ends with the position
      have hlength := congrArg String.length h
      rw [substitute_zero, substitute_succ, String.length_append _ ("_" ++ _)] at hlength
      simp at hlength
  | succ m =>
    cases n with
    | zero =>
      have hlength := congrArg String.length h
      rw [substitute_zero, substitute_succ, String.length_append _ ("_" ++ _)] at hlength
      simp at hlength
    | succ n =>
      rw [substitute_succ, substitute_succ, String.append_right_inj, String.append_right_inj] at h
      have hdigits := congrArg (fun s : String => Nat.ofDigitChars 10 s.toList 0) h
      simpa using hdigits

/-- The search ends at a substitute before which all are taken, and which is free unless it is the
last one that is looked at. -/
theorem freshFrom_eq_substitute (taken : List String) (position : Nat) :
    ∀ fuel n, ∃ k, freshFrom taken position fuel n = substitute position k ∧ n ≤ k ∧ k ≤ n + fuel ∧
      (∀ j, n ≤ j → j < k → substitute position j ∈ taken) ∧
      (k < n + fuel → substitute position k ∉ taken) := by
  intro fuel
  induction fuel with
  | zero =>
    intro n
    exact ⟨n, rfl, Nat.le_refl n, Nat.le_refl n, fun j hj hjn => absurd hjn (by omega),
      fun h => absurd h (by omega)⟩
  | succ fuel ih =>
    intro n
    rw [freshFrom]
    split
    · rename_i htaken
      obtain ⟨k, hk, hnk, hkf, hall, hfree⟩ := ih (n + 1)
      refine ⟨k, hk, by omega, by omega, ?_, fun h => hfree (by omega)⟩
      intro j hj hjk
      by_cases hjn : j = n
      · rw [hjn]
        exact List.contains_iff_mem.mp htaken
      · exact hall j (by omega) hjk
    · rename_i hfree
      refine ⟨n, rfl, Nat.le_refl n, by omega, fun j hj hjn => absurd hjn (by omega), fun _ h => ?_⟩
      exact hfree (List.contains_iff_mem.mpr h)

/-- As many substitutes as there are taken ids cannot be all taken, with one more. -/
theorem exists_le_substitute_not_mem (taken : List String) (position : Nat) :
    ∃ k ≤ taken.length, substitute position k ∉ taken := by
  by_contra hall
  push Not at hall
  have hsub : (List.range (taken.length + 1)).map (substitute position) ⊆ taken := by
    intro id hid
    obtain ⟨k, hk, rfl⟩ := List.mem_map.mp hid
    exact hall k (Nat.lt_succ_iff.mp (List.mem_range.mp hk))
  have hnodup : ((List.range (taken.length + 1)).map (substitute position)).Nodup :=
    List.nodup_range.map (substitute_injective position)
  have hlength := (hnodup.subperm hsub).length_le
  rw [List.length_map, List.length_range] at hlength
  omega

/-- A fresh id is the first substitute that is not taken. -/
theorem freshId_spec (taken : List String) (position : Nat) :
    ∃ k, freshId taken position = substitute position k ∧ substitute position k ∉ taken ∧
      ∀ j < k, substitute position j ∈ taken := by
  obtain ⟨k, hk, -, hkl, hall, hfree⟩ := freshFrom_eq_substitute taken position taken.length 0
  refine ⟨k, hk, ?_, fun j hj => hall j (Nat.zero_le j) hj⟩
  rw [Nat.zero_add] at hkl hfree
  by_cases hlt : k < taken.length
  · exact hfree hlt
  · obtain ⟨i, hi, hifree⟩ := exists_le_substitute_not_mem taken position
    have hik : ¬ i < k := fun h => hifree (hall i (Nat.zero_le i) h)
    have hki : k = i := by omega
    rwa [hki]

theorem freshId_not_mem (taken : List String) (position : Nat) :
    freshId taken position ∉ taken := by
  obtain ⟨k, hk, hfree, -⟩ := freshId_spec taken position
  rwa [hk]

theorem freshId_ne_empty (taken : List String) (position : Nat) : freshId taken position ≠ "" := by
  obtain ⟨k, hk, -⟩ := freshId_spec taken position
  rw [hk]
  exact substitute_ne_empty position k

/-! ### Kept ids -/

/-- The ids that are kept, of calls that are flagged. -/
def keptIds (flagged : List (ToolCall × Bool)) : List String := (flagged.filter (·.2)).map (·.1.id)

@[simp] theorem keptIds_nil : keptIds [] = [] := rfl

@[simp] theorem keptIds_cons_true (call : ToolCall) (rest : List (ToolCall × Bool)) :
    keptIds ((call, true) :: rest) = call.id :: keptIds rest := rfl

@[simp] theorem keptIds_cons_false (call : ToolCall) (rest : List (ToolCall × Bool)) :
    keptIds ((call, false) :: rest) = keptIds rest := rfl

/-- The calls of a list, each with whether its id is kept. -/
def flagged (seen : List String) (calls : List ToolCall) : List (ToolCall × Bool) :=
  calls.zip (keptFlags seen (calls.map (·.id)))

@[simp] theorem flagged_nil (seen : List String) : flagged seen [] = [] := rfl

theorem flagged_cons (seen : List String) (call : ToolCall) (rest : List ToolCall) :
    flagged seen (call :: rest) =
      if call.id.isEmpty || seen.contains call.id then (call, false) :: flagged seen rest
      else (call, true) :: flagged (call.id :: seen) rest := by
  rw [flagged, List.map_cons, keptFlags]
  split <;> rfl

theorem uniqueIds_eq_assignIds (calls : List ToolCall) :
    uniqueIds calls = assignIds (keptIds (flagged [] calls)) 0 (flagged [] calls) := rfl

/-- Kept ids are not empty, differ from each other and have not been seen before. -/
theorem keptIds_flagged (seen : List String) (calls : List ToolCall) :
    (keptIds (flagged seen calls)).Nodup ∧
      ∀ id ∈ keptIds (flagged seen calls), id ≠ "" ∧ id ∉ seen := by
  induction calls generalizing seen with
  | nil => simp
  | cons call rest ih =>
    rw [flagged_cons]
    split
    · exact ih seen
    · rename_i hkeep
      simp only [Bool.or_eq_true, String.isEmpty_iff, List.contains_iff_mem, not_or] at hkeep
      obtain ⟨hnodup, hnew⟩ := ih (call.id :: seen)
      rw [keptIds_cons_true]
      refine ⟨List.nodup_cons.mpr ⟨fun h => (hnew _ h).2 List.mem_cons_self, hnodup⟩, ?_⟩
      intro id hid
      rcases List.mem_cons.mp hid with rfl | hid
      · exact hkeep
      · exact ⟨(hnew id hid).1, fun h => (hnew id hid).2 (List.mem_cons_of_mem _ h)⟩

/-! ### Ids that tell calls apart -/

/-- Whether the ids of calls are not empty and tell the calls apart. -/
structure HasUniqueIds (calls : List ToolCall) : Prop where
  /-- No two calls share an id. -/
  nodup : (calls.map (·.id)).Nodup
  /-- Every call has an id. -/
  ne_empty : ∀ call ∈ calls, call.id ≠ ""

/-- An assigned id is a kept one, or it was free. -/
theorem mem_assignIds {taken : List String} {position : Nat} {flagged : List (ToolCall × Bool)}
    {call : ToolCall} (h : call ∈ assignIds taken position flagged) :
    call.id ∈ keptIds flagged ∨ (call.id ∉ taken ∧ call.id ≠ "") := by
  induction flagged generalizing taken position with
  | nil => simp [assignIds] at h
  | cons head rest ih =>
    obtain ⟨c, kept⟩ := head
    cases kept with
    | true =>
      rw [assignIds] at h
      rcases List.mem_cons.mp h with rfl | h
      · exact Or.inl List.mem_cons_self
      · exact (ih h).imp (List.mem_cons_of_mem _) id
    | false =>
      rw [assignIds] at h
      rcases List.mem_cons.mp h with rfl | h
      · exact Or.inr ⟨freshId_not_mem taken position, freshId_ne_empty taken position⟩
      · exact (ih h).imp id fun ⟨hfree, hne⟩ => ⟨fun ht => hfree (List.mem_cons_of_mem _ ht), hne⟩

theorem nodup_assignIds {taken : List String} {position : Nat} {flagged : List (ToolCall × Bool)}
    (hnodup : (keptIds flagged).Nodup) (htaken : keptIds flagged ⊆ taken) :
    ((assignIds taken position flagged).map (·.id)).Nodup := by
  induction flagged generalizing taken position with
  | nil => simp [assignIds]
  | cons head rest ih =>
    obtain ⟨c, kept⟩ := head
    cases kept with
    | true =>
      rw [keptIds_cons_true] at hnodup htaken
      obtain ⟨hfirst, hnodup⟩ := List.nodup_cons.mp hnodup
      have hrest := fun id hid => htaken (List.mem_cons_of_mem c.id hid : id ∈ c.id :: keptIds rest)
      rw [assignIds, List.map_cons, List.nodup_cons]
      refine ⟨fun hmem => ?_, ih hnodup hrest⟩
      obtain ⟨d, hd, hid⟩ := List.mem_map.mp hmem
      rcases mem_assignIds hd with hkept | ⟨hfree, -⟩
      · exact hfirst (hid ▸ hkept)
      · exact hfree (hid ▸ htaken List.mem_cons_self)
    | false =>
      rw [keptIds_cons_false] at hnodup htaken
      rw [assignIds, List.map_cons, List.nodup_cons]
      have hgrown : keptIds rest ⊆ freshId taken position :: taken :=
        fun id hid => List.mem_cons_of_mem _ (htaken hid)
      refine ⟨fun hmem => ?_, ih hnodup hgrown⟩
      obtain ⟨d, hd, hid⟩ := List.mem_map.mp hmem
      dsimp only at hid
      rcases mem_assignIds hd with hkept | ⟨hfree, -⟩
      · exact freshId_not_mem taken position (hid ▸ htaken hkept)
      · exact hfree (hid ▸ List.mem_cons_self)

/-- **Unique ids.**  After `uniqueIds` the ids of the calls are not empty and tell the calls
apart. -/
theorem uniqueIds_hasUniqueIds (calls : List ToolCall) : HasUniqueIds (uniqueIds calls) := by
  obtain ⟨hnodup, hnew⟩ := keptIds_flagged [] calls
  rw [uniqueIds_eq_assignIds]
  refine ⟨nodup_assignIds hnodup (List.Subset.refl _), fun call hcall => ?_⟩
  rcases mem_assignIds hcall with hkept | ⟨-, hne⟩
  · exact (hnew _ hkept).1
  · exact hne

/-! ### Ids that serve already -/

/-- Ids that are not empty, differ and have not been seen before are all kept. -/
theorem flagged_eq_map {seen : List String} {calls : List ToolCall} (h : HasUniqueIds calls)
    (hseen : ∀ call ∈ calls, call.id ∉ seen) : flagged seen calls = calls.map (·, true) := by
  induction calls generalizing seen with
  | nil => rfl
  | cons call rest ih =>
    obtain ⟨hfirst, hnodup⟩ := List.nodup_cons.mp h.nodup
    have hkeep : ¬ (call.id.isEmpty || seen.contains call.id) = true := by
      simp only [Bool.or_eq_true, String.isEmpty_iff, List.contains_iff_mem, not_or]
      exact ⟨h.ne_empty call List.mem_cons_self, hseen call List.mem_cons_self⟩
    rw [flagged_cons, if_neg hkeep, List.map_cons]
    congr 1
    refine ih ⟨hnodup, fun c hc => h.ne_empty c (List.mem_cons_of_mem _ hc)⟩ fun c hc hmem => ?_
    rcases List.mem_cons.mp hmem with heq | hmem
    · exact hfirst (List.mem_map.mpr ⟨c, hc, heq⟩)
    · exact hseen c (List.mem_cons_of_mem _ hc) hmem

theorem assignIds_map_true (taken : List String) (position : Nat) (calls : List ToolCall) :
    assignIds taken position (calls.map (·, true)) = calls := by
  induction calls generalizing position with
  | nil => rfl
  | cons call rest ih => rw [List.map_cons, assignIds, ih]

/-- Calls whose ids serve already stay as they are. -/
theorem uniqueIds_eq_self {calls : List ToolCall} (h : HasUniqueIds calls) :
    uniqueIds calls = calls := by
  rw [uniqueIds_eq_assignIds, flagged_eq_map h (fun _ _ => List.not_mem_nil), assignIds_map_true]

/-- **No drift.**  A message whose ids are unique keeps them. -/
@[simp] theorem normalizeIds_normalizeIds (m : Message) :
    m.normalizeIds.normalizeIds = m.normalizeIds := by
  have h : uniqueIds (uniqueIds m.toolCalls) = uniqueIds m.toolCalls :=
    uniqueIds_eq_self (uniqueIds_hasUniqueIds m.toolCalls)
  simp only [normalizeIds, h]

theorem normalizeIds_eq_self {m : Message} (h : HasUniqueIds m.toolCalls) : m.normalizeIds = m := by
  rw [normalizeIds, uniqueIds_eq_self h]

/-! ### What the ids do not touch -/

theorem map_fst_flagged (seen : List String) (calls : List ToolCall) :
    (flagged seen calls).map (·.1) = calls := by
  induction calls generalizing seen with
  | nil => rfl
  | cons call rest ih =>
    rw [flagged_cons]
    split
    · rw [List.map_cons, ih]
    · rw [List.map_cons, ih]

/-- Whatever is read off a call without its id is the same after ids are assigned. -/
theorem map_assignIds {α : Type} {f : ToolCall → α} (hf : ∀ call id, f { call with id } = f call)
    (taken : List String) (position : Nat) (flagged : List (ToolCall × Bool)) :
    (assignIds taken position flagged).map f = (flagged.map (·.1)).map f := by
  induction flagged generalizing taken position with
  | nil => rfl
  | cons head rest ih =>
    obtain ⟨call, kept⟩ := head
    cases kept with
    | true => rw [assignIds, List.map_cons, ih, List.map_cons, List.map_cons]
    | false =>
      rw [assignIds]
      show f { call with id := freshId taken position } :: _ = _
      rw [hf, ih, List.map_cons, List.map_cons]

/-- Whatever is read off a call without its id is the same after `uniqueIds`. -/
theorem map_uniqueIds {α : Type} {f : ToolCall → α} (hf : ∀ call id, f { call with id } = f call)
    (calls : List ToolCall) : (uniqueIds calls).map f = calls.map f := by
  rw [uniqueIds_eq_assignIds, map_assignIds hf, map_fst_flagged]

/-- Whether two messages differ in the ids of their calls at most. -/
structure SameButIds (m m' : Message) : Prop where
  /-- The same one speaks. -/
  role : m'.role = m.role
  /-- The same is said. -/
  content : m'.content = m.content
  /-- The same call is answered. -/
  toolCallId? : m'.toolCallId? = m.toolCallId?
  /-- The same tools are called, in the same order and with the same arguments. -/
  calls : m'.toolCalls.map (fun call => (call.name, call.arguments)) =
    m.toolCalls.map fun call => (call.name, call.arguments)

/-- Unique ids change nothing else. -/
theorem sameButIds_normalizeIds (m : Message) : SameButIds m m.normalizeIds :=
  ⟨rfl, rfl, rfl, map_uniqueIds (fun _ _ => rfl) m.toolCalls⟩

end Parley.Chat.Message
