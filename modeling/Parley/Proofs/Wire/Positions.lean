import Mathlib.Data.List.Basic
import Parley.Proofs.Json.Range
import Parley.Wire.OpenAi.Reply

/-!
# Positions in replies

Embedding and ranking replies number their entries by the position of what they are for, and may
send them in any order.

* `embeddings_eq_ok`: when the entries have the numbers up to their count, each once, the vectors
  stand in the order of these numbers.  They have been sorted by number, and sorted numbers up to a
  count are the positions themselves.
* `scores_eq_ok`: the score of a document is that of the last entry with its number.  Each entry
  writes its score at one position, so that later ones win (`getElem?_placed`).

Numbers are natural numbers that fit a word of 64 bits, as all integers do that have been read from
a text.
-/

namespace Parley.Wire.OpenAi

open Floating (Single)

variable {reply v : Json} {entries entries' : List Json} {documents : List String} {i : Nat}

/-! ### Entries -/

/-- The vector of an entry. -/
def vectorOf (entry : Json) : List Single := Single.listOfJson (entry.member "embedding")

/-- The score of an entry.  What is no number counts as zero. -/
def scoreOf (entry : Json) : Single := (Single.ofJson? (entry.member "relevance_score")).getD .zero

/-- The number of an entry, where it has one. -/
def numberOf (entry : Json) : Nat := ((entry.member "index").nat64?).getD 0

theorem get?_eq_of_member {name : String} (h : reply.member name = .arr entries) :
    reply.get? name = some (.arr entries) := by
  unfold Json.member at h
  cases hget : reply.get? name with
  | none => rw [hget] at h; cases h
  | some a => rw [hget, Option.getD_some] at h; rw [h]

theorem nat64?_index {entry : Json} (hranged : entry.Ranged) (h : entry.member "index" = .nat i) :
    (entry.member "index").nat64? = some i := by
  have hindex := hranged.member "index"
  rw [h] at hindex ⊢
  exact Json.nat64?_nat hindex.nat_lt

/-- Numbers that entries have can be read off them. -/
theorem exists_nat64?_index (hranged : ∀ entry ∈ entries, entry.Ranged)
    (hindex : ∀ entry ∈ entries, ∃ i : Nat, entry.member "index" = .nat i) :
    ∀ entry ∈ entries, ∃ i, (entry.member "index").nat64? = some i := by
  intro entry hentry
  obtain ⟨i, hi⟩ := hindex entry hentry
  exact ⟨i, nat64?_index (hranged entry hentry) hi⟩

theorem numberOf_eq {entry : Json} (hranged : entry.Ranged) (h : entry.member "index" = .nat i) :
    numberOf entry = i := by
  rw [numberOf, nat64?_index hranged h, Option.getD_some]

/-- The entries of a reply have been read with it. -/
theorem ranged_of_mem {name : String} (hranged : reply.Ranged)
    (h : reply.member name = .arr entries) :
    ∀ entry ∈ entries, entry.Ranged := by
  intro entry hentry
  have hmember := hranged.member name
  rw [h] at hmember
  exact hmember.of_mem_items hentry

/-! ### Vectors -/

/-- The entries have the numbers up to their count, each of them once. -/
def Numbered (entries : List Json) : Prop :=
  (entries.map (·.member "index")).Perm ((List.range entries.length).map Json.nat)

theorem Numbered.exists_eq (h : Numbered entries) {entry : Json} (hentry : entry ∈ entries) :
    ∃ i : Nat, entry.member "index" = .nat i := by
  have hmem : entry.member "index" ∈ (List.range entries.length).map Json.nat :=
    h.mem_iff.mp (List.mem_map_of_mem hentry)
  obtain ⟨i, -, hindex⟩ := List.mem_map.mp hmem
  exact ⟨i, hindex.symm⟩

theorem Numbered.exists_of_lt (h : Numbered entries) (hi : i < entries.length) :
    ∃ entry ∈ entries, entry.member "index" = .nat i := by
  have hmem : Json.nat i ∈ entries.map (·.member "index") :=
    h.mem_iff.mpr (List.mem_map_of_mem (List.mem_range.mpr hi))
  exact List.mem_map.mp hmem

theorem Numbered.of_perm (h : Numbered entries) (hperm : entries'.Perm entries) :
    Numbered entries' := by
  have hindices := hperm.map (·.member "index")
  rw [Numbered, hperm.length_eq]
  exact hindices.trans h

theorem Numbered.perm_numberOf (h : Numbered entries) (hranged : ∀ entry ∈ entries, entry.Ranged) :
    (entries.map numberOf).Perm (List.range entries.length) := by
  have hread : (List.range entries.length).map (fun i => ((Json.nat i).nat64?).getD 0) =
      List.range entries.length := by
    conv => rhs; rw [← List.map_id' (List.range entries.length)]
    apply List.map_congr_left
    intro i hi
    obtain ⟨entry, hentry, hindex⟩ := h.exists_of_lt (List.mem_range.mp hi)
    rw [← hindex]
    exact numberOf_eq (hranged entry hentry) hindex
  have hperm := h.map fun v => (v.nat64?).getD 0
  rw [List.map_map, List.map_map] at hperm
  exact hread ▸ hperm

section Sorting

variable {α : Type} {pairs : List (Nat × α)} {n : Nat}

theorem pairwise_mergeSort_fst (pairs : List (Nat × α)) :
    (pairs.mergeSort fun a b => a.1 ≤ b.1).Pairwise fun a b => a.1 ≤ b.1 := by
  have htrans : ∀ a b c : Nat × α, decide (a.1 ≤ b.1) = true → decide (b.1 ≤ c.1) = true →
      decide (a.1 ≤ c.1) = true := by
    intro a b c hab hbc
    rw [decide_eq_true_eq] at hab hbc ⊢
    exact Nat.le_trans hab hbc
  have htotal : ∀ a b : Nat × α, (decide (a.1 ≤ b.1) || decide (b.1 ≤ a.1)) = true := by
    intro a b
    rw [Bool.or_eq_true, decide_eq_true_eq, decide_eq_true_eq]
    exact Nat.le_total a.1 b.1
  exact (List.pairwise_mergeSort htrans htotal pairs).imp of_decide_eq_true

/-- **Sorted by number**, entries with the numbers up to their count stand at their numbers. -/
theorem getElem?_mergeSort (h : (pairs.map (·.1)).Perm (List.range n)) {a : α}
    (hmem : (i, a) ∈ pairs) :
    (pairs.mergeSort fun a b => a.1 ≤ b.1)[i]? = some (i, a) := by
  have hperm : (pairs.mergeSort fun a b => a.1 ≤ b.1).Perm pairs := List.mergeSort_perm pairs _
  have hnumbers : (pairs.mergeSort fun a b => a.1 ≤ b.1).map (·.1) = List.range n := by
    have hsorted := List.pairwise_map.mpr (pairwise_mergeSort_fst pairs)
    have hrange : (List.range n).Pairwise (· ≤ ·) := List.pairwise_lt_range.imp Nat.le_of_lt
    exact ((hperm.map _).trans h).eq_of_pairwise (fun a b _ _ => Nat.le_antisymm) hsorted hrange
  obtain ⟨k, hk⟩ := List.mem_iff_getElem?.mp (hperm.mem_iff.mpr hmem)
  have hnumber : (List.range n)[k]? = some i := by
    rw [← hnumbers, List.getElem?_map, hk, Option.map_some]
  obtain ⟨hlt, hki⟩ := List.getElem?_eq_some_iff.mp hnumber
  rw [List.getElem_range] at hki
  rw [← hki, hk, hki]

end Sorting

/-- Where all entries are numbered, their own positions do not matter. -/
theorem embeddings_eq (hdata : reply.member "data" = .arr entries)
    (hnumbers : ∀ entry ∈ entries, ∃ i, (entry.member "index").nat64? = some i) :
    embeddings reply =
      .ok (((entries.map fun entry => (numberOf entry, vectorOf entry)).mergeSort
        fun a b => a.1 ≤ b.1).map (·.2)) := by
  unfold embeddings
  rw [get?_eq_of_member hdata, Option.bind_some, Json.items?]
  dsimp only
  refine congrArg (fun pairs : List (Nat × List Single) => Except.ok
    ((pairs.mergeSort fun a b => a.1 ≤ b.1).map (·.2))) ?_
  conv => rhs; rw [← List.zipIdx_map_fst 0 entries, List.map_map]
  apply List.map_congr_left
  rintro ⟨entry, position⟩ hmem
  obtain ⟨i, hi⟩ := hnumbers entry (List.fst_mem_of_mem_zipIdx hmem)
  simp only [Function.comp_apply, numberOf, vectorOf, hi, Option.getD_some]

/-- **Vectors stand at their numbers**, in whatever order they have been sent. -/
theorem embeddings_eq_ok (hranged : reply.Ranged) (hdata : reply.member "data" = .arr entries)
    (h : Numbered entries) :
    ∃ vectors, embeddings reply = .ok vectors ∧ vectors.length = entries.length ∧
      ∀ entry ∈ entries, ∀ i, entry.member "index" = .nat i →
      vectors[i]? = some (vectorOf entry) := by
  have hentries := ranged_of_mem hranged hdata
  have hread := exists_nat64?_index hentries fun entry => h.exists_eq
  refine ⟨_, embeddings_eq hdata hread, ?_, fun entry hentry i hindex => ?_⟩
  · rw [List.length_map, List.length_mergeSort, List.length_map]
  · have hnumbers := h.perm_numberOf hentries
    have hpair : (i, vectorOf entry) ∈ entries.map fun entry =>
        (numberOf entry, vectorOf entry) := by
      rw [← numberOf_eq (hentries entry hentry) hindex]
      exact List.mem_map_of_mem hentry
    have hpairs : ((entries.map fun entry => (numberOf entry, vectorOf entry)).map (·.1)).Perm
        (List.range entries.length) := by
      rw [List.map_map]
      exact hnumbers
    rw [List.getElem?_map, getElem?_mergeSort hpairs hpair, Option.map_some]

/-- The order of the entries does not show in the vectors. -/
theorem embeddings_congr {reply' : Json} (hranged : reply.Ranged) (hranged' : reply'.Ranged)
    (hdata : reply.member "data" = .arr entries) (hdata' : reply'.member "data" = .arr entries')
    (h : Numbered entries) (hperm : entries'.Perm entries) :
    embeddings reply' = embeddings reply := by
  obtain ⟨vectors, hvectors, hlength, hplaced⟩ := embeddings_eq_ok hranged hdata h
  obtain ⟨vectors', hvectors', hlength', hplaced'⟩ :=
    embeddings_eq_ok hranged' hdata' (h.of_perm hperm)
  rw [hvectors, hvectors']
  congr 1
  apply List.ext_getElem?
  intro i
  by_cases hi : i < entries.length
  · obtain ⟨entry, hentry, hindex⟩ := h.exists_of_lt hi
    rw [hplaced entry hentry i hindex, hplaced' entry (hperm.mem_iff.mpr hentry) i hindex]
  · have hnone : vectors.length ≤ i := by omega
    have hnone' : vectors'.length ≤ i := by
      rw [hlength', hperm.length_eq]
      omega
    rw [List.getElem?_eq_none hnone, List.getElem?_eq_none hnone']

/-! ### Scores -/

/-- The scores after those of some entries have been put in their places. -/
def placed (scores : List Single) (entries : List Json) : List Single :=
  entries.foldl (fun scores entry => scores.set (numberOf entry) (scoreOf entry)) scores

theorem placed_cons (scores : List Single) (entry : Json) (entries : List Json) :
    placed scores (entry :: entries) =
      placed (scores.set (numberOf entry) (scoreOf entry)) entries := rfl

theorem length_placed (scores : List Single) (entries : List Json) :
    (placed scores entries).length = scores.length := by
  induction entries generalizing scores with
  | nil => rfl
  | cons entry entries ih =>
    rw [placed_cons, ih, List.length_set]

/-- **The last entry for a position counts**, and where there is none, the score stays. -/
theorem getElem?_placed (scores : List Single) (entries : List Json) (i : Nat) :
    (placed scores entries)[i]? =
    scores[i]?.map fun s =>
      (((entries.filter fun entry => numberOf entry = i).getLast?).map scoreOf).getD s := by
  induction entries generalizing scores with
  | nil => simp [placed]
  | cons entry entries ih =>
    rw [placed_cons, ih, List.filter_cons]
    by_cases hi : numberOf entry = i
    · rw [if_pos (decide_eq_true hi), List.getLast?_cons, hi, List.getElem?_set_self']
      cases scores[i]? with
      | none => rfl
      | some s => cases (entries.filter fun entry => numberOf entry = i).getLast? <;> rfl
    · rw [if_neg (by simpa using hi), List.getElem?_set_ne hi]

theorem foldlM_putScore (hnumbers : ∀ entry ∈ entries, ∃ i, (entry.member "index").nat64? = some i)
    (scores : List Single) : entries.foldlM putScore scores = .ok (placed scores entries) := by
  induction entries generalizing scores with
  | nil => rfl
  | cons entry entries ih =>
    obtain ⟨⟨i, hi⟩, hnumbers⟩ := List.forall_mem_cons.mp hnumbers
    have hput : putScore scores entry = .ok (scores.set (numberOf entry) (scoreOf entry)) := by
      rw [putScore, numberOf, hi]
      rfl
    rw [List.foldlM_cons, hput]
    exact ih hnumbers _

theorem foldlM_putScore_of_missing
    (hmissing : ∃ entry ∈ entries, (entry.member "index").nat64? = none) (scores : List Single) :
    entries.foldlM putScore scores = .error (.missingField "index") := by
  induction entries generalizing scores with
  | nil => obtain ⟨entry, hentry, -⟩ := hmissing; cases hentry
  | cons entry entries ih =>
    rw [List.foldlM_cons, putScore]
    cases hnumber : (entry.member "index").nat64? with
    | none => rfl
    | some i =>
      obtain ⟨other, hother, hnone⟩ := hmissing
      obtain rfl | hother := List.mem_cons.mp hother
      · rw [hnumber] at hnone
        cases hnone
      · exact ih ⟨other, hother, hnone⟩ _

/-- The last entry with a number. -/
def lastFor (entries : List Json) (i : Nat) : Option Json :=
  (entries.filter fun entry => entry.member "index" = .nat i).getLast?

/-- **Scores stand at their documents**, whatever has been sent twice or for no document. -/
theorem scores_eq_ok (hranged : reply.Ranged) (hresults : reply.member "results" = .arr entries)
    (hindex : ∀ entry ∈ entries, ∃ i : Nat, entry.member "index" = .nat i)
    (documents : List String) :
    ∃ ss, scores reply documents = .ok ss ∧ ss.length = documents.length ∧
      ∀ i < documents.length, ss[i]? = some (((lastFor entries i).map scoreOf).getD .zero) := by
  have hentries := ranged_of_mem hranged hresults
  have hread := exists_nat64?_index hentries hindex
  have hlast (i : Nat) : (entries.filter fun entry => numberOf entry = i).getLast? =
      lastFor entries i := by
    rw [lastFor]
    congr 1
    apply List.filter_congr
    intro entry hentry
    obtain ⟨k, hk⟩ := hindex entry hentry
    simp only [numberOf_eq (hentries entry hentry) hk, hk, Json.nat_inj]
  have hscores : scores reply documents = .ok (placed (documents.map fun _ => .zero) entries) := by
    unfold scores
    rw [get?_eq_of_member hresults, Option.bind_some, Json.items?]
    exact foldlM_putScore hread _
  refine ⟨_, hscores, by rw [length_placed, List.length_map], fun i hi => ?_⟩
  rw [getElem?_placed, hlast, List.getElem?_map, List.getElem?_eq_getElem hi]
  rfl

/-- Where an entry has no number, there are no scores. -/
theorem scores_eq_error (hresults : reply.member "results" = .arr entries)
    (hmissing : ∃ entry ∈ entries, ∀ i : Nat, entry.member "index" ≠ .nat i)
    (documents : List String) :
    scores reply documents = .error (.missingField "index") := by
  obtain ⟨entry, hentry, hnone⟩ := hmissing
  have hread : (entry.member "index").nat64? = none := by
    rw [Option.eq_none_iff_forall_ne_some]
    intro i hi
    exact hnone i (Json.eq_nat_of_nat64? hi)
  unfold scores
  rw [get?_eq_of_member hresults, Option.bind_some, Json.items?]
  exact foldlM_putScore_of_missing ⟨entry, hentry, hread⟩ _

/-- Only the last entry for each document shows in the scores. -/
theorem scores_congr {reply' : Json} (hranged : reply.Ranged) (hranged' : reply'.Ranged)
    (hresults : reply.member "results" = .arr entries)
    (hresults' : reply'.member "results" = .arr entries')
    (hindex : ∀ entry ∈ entries, ∃ i : Nat, entry.member "index" = .nat i)
    (hindex' : ∀ entry ∈ entries', ∃ i : Nat, entry.member "index" = .nat i)
    (hlast : ∀ i < documents.length, lastFor entries' i = lastFor entries i) :
    scores reply' documents = scores reply documents := by
  obtain ⟨ss, hss, hlength, hplaced⟩ := scores_eq_ok hranged hresults hindex documents
  obtain ⟨ss', hss', hlength', hplaced'⟩ := scores_eq_ok hranged' hresults' hindex' documents
  rw [hss, hss']
  congr 1
  apply List.ext_getElem?
  intro i
  by_cases hi : i < documents.length
  · rw [hplaced i hi, hplaced' i hi, hlast i hi]
  · rw [List.getElem?_eq_none (by omega), List.getElem?_eq_none (by omega)]

theorem lastFor_of_out_of_range {before after : List Json} {entry : Json} {k : Nat}
    (hentry : entry.member "index" = .nat k) (hi : i ≠ k) :
    lastFor (before ++ after) i = lastFor (before ++ entry :: after) i := by
  have hother : ¬ decide (entry.member "index" = .nat i) = true := by
    rw [hentry, decide_eq_true_eq, Json.nat_inj]
    exact hi.symm
  rw [lastFor, lastFor, List.filter_append, List.filter_append, List.filter_cons, if_neg hother]

theorem lastFor_of_perm (hperm : entries'.Perm entries)
    (hdistinct : (entries.map (·.member "index")).Nodup) (i : Nat) :
    lastFor entries' i = lastFor entries i := by
  have hfilter := hperm.filter fun entry => decide (entry.member "index" = .nat i)
  have hnodup :
      ((entries.filter fun entry => entry.member "index" = .nat i).map (·.member "index")).Nodup :=
    hdistinct.sublist ((List.filter_sublist).map _)
  have hindex : ∀ entry ∈ entries.filter fun entry => entry.member "index" = .nat i,
      entry.member "index" = .nat i := by
    intro entry hentry
    exact of_decide_eq_true (List.mem_filter.mp hentry).2
  rw [lastFor, lastFor]
  generalize (entries.filter fun entry => decide (entry.member "index" = .nat i)) = found at *
  -- there are no two entries with a number
  obtain _ | ⟨a, _ | ⟨b, rest⟩⟩ := found
  · rw [hfilter.eq_nil]
  · rw [List.perm_singleton.mp hfilter]
  · have ha := hindex a List.mem_cons_self
    have hb := hindex b (List.mem_cons_of_mem _ List.mem_cons_self)
    simp [ha, hb] at hnodup

end Parley.Wire.OpenAi
