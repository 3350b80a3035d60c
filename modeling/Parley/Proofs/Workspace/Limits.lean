import Parley.Proofs.Workspace.Routes
import Parley.Workspace.Disk

/-!
# Paths that the system takes

The system takes a path without the character NUL that is not too long as a whole.  Of a path that
is put behind that of a root, the root leaves a part (`Disk.limitBelow`): a location is too long for
this part exactly when its path on the disk is too long (`Disk.isTooLong_limitBelow`).

Where the path of a location is taken, so is that of the directory that it is in
(`Mount.takesParents_whole`), because it is shorter.
-/

namespace Parley.Workspace

variable {l : Location} {limit : Nat} {name root : String}

/-! ### How long paths are -/

theorem size_join_concat (l : Location) (name : String) :
    (Text.join "/" l).utf8ByteSize ≤ (Text.join "/" (l ++ [name])).utf8ByteSize := by
  rw [Text.join, Text.join]
  by_cases hl : l = []
  · simp [hl]
  · rw [String.intercalate_append_of_ne_nil hl (by simp)]
    simp only [String.utf8ByteSize_append, Nat.add_assoc]
    exact Nat.le_add_right _ _

/-- A path that does not end with a slash gets one before the name. -/
theorem descend_eq (hempty : root ≠ "") (hslash : root.toList.getLast? ≠ some '/') (name : String) :
    descend root name = root ++ "/" ++ name := by
  rw [descend, if_neg]
  rintro (hlast | hlast)
  · exact hempty (String.toList_eq_nil_iff.mp (List.getLast?_eq_none_iff.mp hlast))
  · exact hslash hlast

/-- The path of a location on the disk has the path of the root, a slash and the path below it. -/
theorem size_below (hempty : root ≠ "") (hslash : root.toList.getLast? ≠ some '/')
    (hl : ∀ n ∈ l, IsName n) (hne : l ≠ []) : (below root l).utf8ByteSize =
      root.utf8ByteSize + 1 + (Text.join "/" l).utf8ByteSize := by
  induction l generalizing root with
  | nil => exact absurd rfl hne
  | cons name l ih =>
    obtain ⟨hname, hl⟩ := List.forall_mem_cons.mp hl
    have hstep : below root (name :: l) = below (root ++ "/" ++ name) l := by
      rw [← descend_eq hempty hslash]
      rfl
    have hchars : name.toList ≠ [] := mt String.toList_eq_nil_iff.mp hname.ne_empty
    have hlast : (root ++ "/" ++ name).toList.getLast? = name.toList.getLast? := by
      rw [String.toList_append]
      exact List.getLast?_append_of_ne_nil _ hchars
    have hnext :
        (root ++ "/" ++ name).utf8ByteSize = root.utf8ByteSize + 1 + name.utf8ByteSize := by
      rw [String.utf8ByteSize_append, String.utf8ByteSize_append]
      rfl
    rw [hstep]
    by_cases hend : l = []
    · rw [hend, Text.join, String.intercalate_singleton]
      exact hnext
    · have hempty : root ++ "/" ++ name ≠ "" := by
        intro h
        have hnil : (root ++ "/" ++ name).toList = [] := String.toList_eq_nil_iff.mpr h
        rw [String.toList_append, List.append_eq_nil_iff] at hnil
        exact hchars hnil.2
      have hslash : (root ++ "/" ++ name).toList.getLast? ≠ some '/' := by
        rw [hlast]
        intro h
        exact hname.no_slash (List.mem_of_getLast? h)
      rw [ih hempty hslash hl hend, hnext, Text.join, Text.join,
        String.intercalate_cons_of_ne_nil hend, String.utf8ByteSize_append,
        String.utf8ByteSize_append]
      simp only [Nat.add_assoc]
      rfl

namespace Disk

theorem isTooLong_concat (h : isTooLong limit l = true) (name : String) :
    isTooLong limit (l ++ [name]) = true := by
  rw [isTooLong, decide_eq_true_eq] at h ⊢
  exact Nat.lt_of_lt_of_le h (size_join_concat l name)

/-- What is below a path that is too long has a path that is too long. -/
theorem isTooLong_append (h : isTooLong limit l = true) (r : Location) :
    isTooLong limit (l ++ r) = true := by
  induction r generalizing l with
  | nil => rwa [List.append_nil]
  | cons name r ih =>
    rw [List.append_cons]
    exact ih (isTooLong_concat h name)

/-- **What a root leaves** is too short for a location exactly when its path is too long. -/
theorem isTooLong_limitBelow (hempty : root ≠ "") (hslash : root.toList.getLast? ≠ some '/')
    (hroot : root.utf8ByteSize < pathLimit) (hl : ∀ n ∈ l, IsName n) (hne : l ≠ []) :
    isTooLong (limitBelow root) l = decide (pathLimit < (below root l).utf8ByteSize) := by
  rw [isTooLong, limitBelow, size_below hempty hslash hl hne, decide_eq_decide]
  omega

/-! ### Paths that are taken -/

theorem hasNul_eq_false_iff : hasNul l = false ↔ ∀ n ∈ l, '\x00' ∉ n.toList := by
  simp [hasNul]

theorem admits_eq_ok_iff {ls : List Location} :
    admits limit ls = .ok () ↔ ∀ l ∈ ls, hasNul l = false ∧ isTooLong limit l = false := by
  unfold admits
  constructor
  · intro h
    split_ifs at h with hnul hlong
    rw [Bool.not_eq_true, List.any_eq_false] at hnul hlong
    exact fun l hl => ⟨Bool.eq_false_iff.mpr (hnul l hl), Bool.eq_false_iff.mpr (hlong l hl)⟩
  · intro h
    have hnul : ls.any hasNul = false :=
      List.any_eq_false.mpr fun l hl => Bool.eq_false_iff.mp (h l hl).1
    have hlong : ls.any (isTooLong limit) = false :=
      List.any_eq_false.mpr fun l hl => Bool.eq_false_iff.mp (h l hl).2
    rw [hnul, hlong]
    rfl

theorem admits_singleton_iff :
    admits limit [l] = .ok () ↔ hasNul l = false ∧ isTooLong limit l = false := by
  rw [admits_eq_ok_iff, List.forall_mem_singleton]

/-- What is taken with a path is taken with the path of the directory that it is in. -/
theorem admits_of_concat (h : admits limit [l ++ [name]] = .ok ()) :
    admits limit [l] = .ok () := by
  rw [admits_singleton_iff, hasNul_eq_false_iff, List.forall_mem_append] at h
  obtain ⟨⟨hnul, -⟩, hlong⟩ := h
  rw [admits_singleton_iff, hasNul_eq_false_iff]
  refine ⟨hnul, ?_⟩
  rw [Bool.eq_false_iff] at hlong ⊢
  exact mt (isTooLong_concat · name) hlong

theorem admits_dropLast (h : admits limit [l] = .ok ()) : admits limit [l.dropLast] = .ok () := by
  cases l using List.reverseRecOn with
  | nil => exact h
  | append_singleton l name =>
    rw [List.dropLast_concat]
    exact admits_of_concat h

end Disk

/-- Where the path of a location is taken, so is that of the directory that it is in. -/
def TakesParents (takes : Location → Bool) : Prop :=
  ∀ l name, takes (l ++ [name]) = true → takes l = true

namespace Mount

theorem takes_iff {m : Mount} : m.takes l = true ↔ m.admits [l] = .ok () := by
  rw [takes]
  cases m.admits [l] with
  | error e => exact iff_of_false Bool.false_ne_true nofun
  | ok u => exact iff_of_true rfl rfl

@[simp] theorem place_whole (limit : Nat) (l : Location) : (whole limit).place l = l := rfl

@[simp] theorem admits_whole (limit : Nat) : (whole limit).admits = Disk.admits limit := rfl

theorem takesParents_whole (limit : Nat) : TakesParents (whole limit).takes :=
  fun _ _ h => takes_iff.mpr (Disk.admits_of_concat (takes_iff.mp h))

end Mount

end Parley.Workspace
