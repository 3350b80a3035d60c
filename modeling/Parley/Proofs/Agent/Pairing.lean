import Mathlib.Data.List.Perm.Subperm
import Parley.Proofs.Agent.Waiting

/-!
# Paired histories

A history is *paired* when calls and results of tools stand together (`Paired`): right behind a
message of the assistant that calls tools stand the results of its calls, in any order, and no
result stands anywhere else.

* `paired_iff_due?`: a history is paired when no result is due at its end.  The results that are due
  can be read off a history from left to right (`due?`).  So pairing can be decided, and a result
  out of place is never made good.
* `paired_append_of_answers`: results of the calls that a turn finds open complete a history that is
  paired but for them.
-/

namespace Parley.Agent

open Chat (Message ToolCall)
open Chat.Message (HasUniqueIds)

/-! ### Results of calls -/

/-- Whether messages are the results of calls with these ids, in any order. -/
structure Answers (results : List Message) (ids : List String) : Prop where
  /-- Nothing else stands between them. -/
  isResult : ∀ r ∈ results, isResult r = true
  /-- Each answers one of the calls, and each call has one. -/
  perm : (results.map (·.toolCallId?)).Perm (ids.map some)

theorem answers_nil_iff {ids : List String} : Answers [] ids ↔ ids = [] := by
  constructor
  · intro h
    exact List.map_eq_nil_iff.mp (List.nil_perm.mp h.perm)
  · rintro rfl
    exact ⟨List.forall_mem_nil _, .nil⟩

/-- A result answers one of the calls, and the others answer the rest. -/
theorem answers_cons_iff {r : Message} {results : List Message} {ids : List String} :
    Answers (r :: results) ids ↔
      Agent.isResult r = true ∧ ∃ id ∈ ids, r.toolCallId? = some id ∧
      Answers results (ids.erase id) := by
  constructor
  · intro h
    obtain ⟨hr, hresults⟩ := List.forall_mem_cons.mp h.isResult
    obtain ⟨id, hid, heq⟩ := List.mem_map.mp (h.perm.subset List.mem_cons_self)
    have hperm := h.perm.trans ((List.perm_cons_erase hid).map some)
    rw [List.map_cons, List.map_cons, heq] at hperm
    exact ⟨hr, id, hid, heq.symm, hresults, hperm.cons_inv⟩
  · rintro ⟨hr, id, hid, heq, h⟩
    refine ⟨List.forall_mem_cons.mpr ⟨hr, h.isResult⟩, ?_⟩
    rw [List.map_cons, heq]
    exact (h.perm.cons (some id)).trans ((List.perm_cons_erase hid).map some).symm

namespace Answers

variable {results more : List Message} {ids ids' : List String}

theorem append (h : Answers results ids) (h' : Answers more ids') :
    Answers (results ++ more) (ids ++ ids') where
  isResult := List.forall_mem_append.mpr ⟨h.isResult, h'.isResult⟩
  perm := by
    rw [List.map_append, List.map_append]
    exact h.perm.append h'.perm

/-- The order of the ids does not matter. -/
theorem trans (h : Answers results ids) (hids : ids.Perm ids') : Answers results ids' :=
  ⟨h.isResult, h.perm.trans (hids.map some)⟩

theorem eq_nil (h : Answers results []) : results = [] :=
  List.map_eq_nil_iff.mp (List.perm_nil.mp h.perm)

theorem mem_answeredIds_iff (h : Answers results ids) {id : String} :
    id ∈ answeredIds results ↔ id ∈ ids := by
  rw [answeredIds, List.filter_eq_self.mpr h.isResult, List.mem_filterMap, ← List.mem_map,
    h.perm.mem_iff]
  simp

end Answers

/-! ### Paired histories -/

/-- Whether calls and results of tools stand together in a history. -/
inductive Paired : List Message → Prop where
  /-- There are none. -/
  | nil : Paired []
  /-- A message that neither calls a tool nor is a result. -/
  | plain {m : Message} {rest : List Message} (hcalling : isCalling m = false)
    (hresult : isResult m = false) (more : Paired rest) : Paired (m :: rest)
  /-- A message that calls tools, and the results. -/
  | exchange {m : Message} {results rest : List Message} (hcalling : isCalling m = true)
    (answers : Answers results (m.toolCalls.map (·.id))) (more : Paired rest) :
    Paired (m :: (results ++ rest))

/-- Whether calls and results of tools stand together in a history but for results of the last calls
that are still to come. -/
def AnsweredInPart (history : List Message) : Prop :=
  ∃ earlier m results answered, history = earlier ++ m :: results ∧ Paired earlier ∧
    isCalling m = true ∧ Answers results answered ∧ answered.Nodup ∧
    answered ⊆ m.toolCalls.map (·.id)

theorem AnsweredInPart.cons {m : Message} {history : List Message} (hcalling : isCalling m = false)
    (hresult : isResult m = false) (h : AnsweredInPart history) :
    AnsweredInPart (m :: history) := by
  obtain ⟨earlier, m', results, answered, rfl, hearlier, hlast⟩ := h
  exact ⟨m :: earlier, m', results, answered, rfl, .plain hcalling hresult hearlier, hlast⟩

/-- The ids of the calls that a message makes on behalf of the assistant. -/
def calledIds (m : Message) : List String := if isCalling m then m.toolCalls.map (·.id) else []

theorem isResult_eq_false_of_isCalling {m : Message} (h : isCalling m = true) :
    isResult m = false := by
  simp only [isCalling, Bool.and_eq_true, decide_eq_true_eq] at h
  rw [isResult, h.1]
  rfl

/-- A message that is no result, and the results of its calls. -/
theorem Paired.block {m : Message} {results rest : List Message} (hresult : isResult m = false)
    (answers : Answers results (calledIds m)) (more : Paired rest) :
    Paired (m :: (results ++ rest)) := by
  cases hcalling : isCalling m with
  | true =>
    rw [calledIds, if_pos hcalling] at answers
    exact .exchange hcalling answers more
  | false =>
    rw [calledIds, hcalling] at answers
    rw [answers.eq_nil]
    exact .plain hcalling hresult more

/-! ### Results that are due -/

/-- The ids of the calls whose results are due behind a message when those of `due` are due in front
of it; none when the message may not stand there. -/
def dueAfter? (due : List String) (m : Message) : Option (List String) :=
  if isResult m then m.toolCallId?.bind fun id => if id ∈ due then some (due.erase id) else none
  else if due = [] then some (calledIds m)
  else none

/-- The ids of the calls whose results are due at the end of a history. -/
def due? : List String → List Message → Option (List String)
  | due, [] => some due
  | due, m :: rest => (dueAfter? due m).bind (due? · rest)

theorem due?_cons (due : List String) (m : Message) (rest : List Message) :
    due? due (m :: rest) = (dueAfter? due m).bind (due? · rest) := rfl

theorem due?_append (due : List String) (l₁ l₂ : List Message) :
    due? due (l₁ ++ l₂) = (due? due l₁).bind (due? · l₂) := by
  induction l₁ generalizing due with
  | nil => rfl
  | cons m rest ih =>
    rw [List.cons_append, due?_cons, due?_cons, Option.bind_assoc]
    exact Option.bind_congr fun due' _ => ih due'

/-- A result stands where it is due, and any other message where none is. -/
theorem dueAfter?_eq_some_iff {due due' : List String} {m : Message} :
    dueAfter? due m = some due' ↔
      (isResult m = true ∧ ∃ id ∈ due, m.toolCallId? = some id ∧ due.erase id = due') ∨
        (isResult m = false ∧ due = [] ∧ calledIds m = due') := by
  unfold dueAfter?
  split
  · rename_i hresult
    simp [hresult, Option.bind_eq_some_iff, and_left_comm]
  · rename_i hresult
    simp [hresult]

/-- Where no result is due, a message may stand that is none. -/
theorem due?_cons_of_isResult_eq_false {m : Message} (h : isResult m = false)
    (rest : List Message) :
    due? [] (m :: rest) = due? (calledIds m) rest := by
  rw [due?_cons, dueAfter?_eq_some_iff.mpr (Or.inr ⟨h, rfl, rfl⟩)]
  rfl

/-- Where no result is due, none may stand. -/
theorem due?_cons_of_isResult {r : Message} (h : isResult r = true) (rest : List Message) :
    due? [] (r :: rest) = none := by
  have hnone : dueAfter? [] r = none := by simp [dueAfter?, h]
  rw [due?_cons, hnone]
  rfl

/-- Behind the results of all calls none is due. -/
theorem Answers.due?_eq {results : List Message} {ids : List String} (h : Answers results ids) :
    due? ids results = some [] := by
  induction results generalizing ids with
  | nil => rw [answers_nil_iff.mp h, due?]
  | cons r rest ih =>
    obtain ⟨hr, id, hid, heq, hrest⟩ := answers_cons_iff.mp h
    rw [due?_cons, dueAfter?_eq_some_iff.mpr (Or.inl ⟨hr, id, hid, heq, rfl⟩)]
    exact ih hrest

theorem Paired.due?_eq {history : List Message} (h : Paired history) :
    due? [] history = some [] := by
  induction h with
  | nil => rfl
  | plain hcalling hresult _ ih =>
    rw [due?_cons_of_isResult_eq_false hresult, calledIds, hcalling]
    exact ih
  | exchange hcalling answers _ ih =>
    rw [due?_cons_of_isResult_eq_false (isResult_eq_false_of_isCalling hcalling), calledIds,
      if_pos hcalling, due?_append, answers.due?_eq]
    exact ih

/-- When no result is due at the end of a history, the ones that were due in front of it stand
first, and what follows is paired. -/
theorem exists_answers_of_due? {due : List String} {history : List Message}
    (h : due? due history = some []) :
    ∃ results rest, history = results ++ rest ∧ Answers results due ∧ Paired rest := by
  -- message by message: each is one of the due results, or all of them have come and it begins the
  -- rest
  induction history generalizing due with
  | nil =>
    cases h
    exact ⟨[], [], rfl, answers_nil_iff.mpr rfl, .nil⟩
  | cons m rest ih =>
    rw [due?_cons, Option.bind_eq_some_iff] at h
    obtain ⟨due', hdue, hrest⟩ := h
    obtain ⟨results, rest', rfl, hanswers, hpaired⟩ := ih hrest
    rcases dueAfter?_eq_some_iff.mp hdue with ⟨hresult, id, hid, heq, rfl⟩ | ⟨hresult, rfl, rfl⟩
    · exact ⟨m :: results, rest', rfl, answers_cons_iff.mpr ⟨hresult, id, hid, heq, hanswers⟩,
        hpaired⟩
    · exact ⟨[], m :: (results ++ rest'),
        rfl, answers_nil_iff.mpr rfl, .block hresult hanswers hpaired⟩

/-- **Paired when nothing is due.** -/
theorem paired_iff_due? {history : List Message} : Paired history ↔ due? [] history = some [] := by
  constructor
  · exact Paired.due?_eq
  · intro h
    obtain ⟨results, rest, rfl, hanswers, hpaired⟩ := exists_answers_of_due? h
    rw [hanswers.eq_nil]
    exact hpaired

instance (history : List Message) : Decidable (Paired history) :=
  decidable_of_iff _ paired_iff_due?.symm

/-- Results may come in any order. -/
example : Paired [{ role := .assistant, toolCalls := [⟨"c1", "ls", ""⟩, ⟨"c2", "ls", ""⟩] },
    .tool "c2" "[]", .tool "c1" "[]"] := by decide

theorem Paired.append {l₁ l₂ : List Message} (h₁ : Paired l₁) (h₂ : Paired l₂) :
    Paired (l₁ ++ l₂) := by
  rw [paired_iff_due?, due?_append, h₁.due?_eq]
  exact h₂.due?_eq

/-- **No repair.**  Once a result stood out of place, a history is not paired however it goes on. -/
theorem not_paired_append {l₁ : List Message} (h : due? [] l₁ = none) (l₂ : List Message) :
    ¬ Paired (l₁ ++ l₂) := by
  rw [paired_iff_due?, due?_append, h]
  intro hdue
  cases hdue

/-- A result has no place behind a paired history, nor behind a message there that calls no tool for
the assistant. -/
theorem Paired.due?_append_result {history rest : List Message} {m r : Message} (h : Paired history)
    (hcalling : isCalling m = false) (hr : isResult r = true) :
    due? [] (history ++ m :: r :: rest) = none := by
  rw [due?_append, h.due?_eq, Option.bind_some]
  cases hresult : isResult m with
  | true => rw [due?_cons_of_isResult hresult]
  | false =>
    rw [due?_cons_of_isResult_eq_false hresult, calledIds, hcalling, if_neg Bool.false_ne_true,
      due?_cons_of_isResult hr]

/-! ### Open calls -/

/-- The results of the calls of a message stand right behind it. -/
theorem Paired.exists_answers {earlier later : List Message} {m : Message}
    (h : Paired (earlier ++ m :: later)) (hcalling : isCalling m = true) :
    ∃ results rest, later = results ++ rest ∧ Answers results (m.toolCalls.map (·.id)) := by
  have hdue := h.due?_eq
  rw [due?_append, Option.bind_eq_some_iff] at hdue
  obtain ⟨due, -, hdue⟩ := hdue
  rw [due?_cons, Option.bind_eq_some_iff] at hdue
  obtain ⟨due', hm, hlater⟩ := hdue
  rcases dueAfter?_eq_some_iff.mp hm with ⟨hresult, -⟩ | ⟨-, -, rfl⟩
  · exact absurd hresult (Bool.eq_false_iff.mp (isResult_eq_false_of_isCalling hcalling))
  · rw [calledIds, if_pos hcalling] at hlater
    obtain ⟨results, rest, rfl, hanswers, -⟩ := exists_answers_of_due? hlater
    exact ⟨results, rest, rfl, hanswers⟩

/-- No call of a paired history is open. -/
theorem Paired.openCalls_eq_nil {history : List Message} (h : Paired history) (request : Request) :
    openCalls request history = [] := by
  apply List.eq_nil_iff_forall_not_mem.mpr
  intro o ho
  obtain ⟨earlier, m, later, hlast, -, hcall, hopen, -⟩ := mem_openCalls_iff.mp ho
  rw [hlast.split] at h
  obtain ⟨results, rest, rfl, hanswers⟩ := h.exists_answers hlast.calling
  refine hopen ?_
  rw [answeredIds_append]
  apply List.mem_append_left
  exact hanswers.mem_answeredIds_iff.mpr (List.mem_map_of_mem (List.mem_of_getElem? hcall))

theorem map_id_unanswered (position : Nat) (calls : List ToolCall) (later : List Message) :
    (unanswered position calls later).map (·.2.id) =
      (calls.map (·.id)).filter (!(answeredIds later).contains ·) := by
  rw [← map_id_dispatched position calls, unanswered, List.filter_map, List.filter_map,
    List.map_map]
  rfl

/-- The calls of a message that results answer and the ones that they leave open are all of them. -/
theorem Answers.perm_append_unanswered {results : List Message} {answered : List String}
    (h : Answers results answered) (hnodup : answered.Nodup) {calls : List ToolCall}
    (hunique : HasUniqueIds calls) (hsub : answered ⊆ calls.map (·.id)) (position : Nat) :
    (answered ++ (unanswered position calls results).map (·.2.id)).Perm (calls.map (·.id)) := by
  have hopen :
      (unanswered position calls results).map (·.2.id) = (calls.map (·.id)).diff answered := by
    rw [map_id_unanswered, hunique.nodup.sdiff_eq_filter]
    apply List.filter_congr
    intro id _
    rw [Bool.eq_iff_iff, Bool.not_eq_true', ← Bool.not_eq_true, List.contains_iff_mem,
      h.mem_answeredIds_iff, decide_eq_true_iff]
  rw [hopen]
  exact List.subperm_append_diff_self_of_count_le (List.subperm_ext_iff.mp (hnodup.subperm hsub))

/-- **Open calls.**  When a history is paired, or would be with results of its last calls, results
of the calls that a turn finds open complete it. -/
theorem paired_append_of_answers {history results : List Message} {request : Request}
    (h : Paired history ∨ AnsweredInPart history)
    (hunique : ∀ m ∈ history, HasUniqueIds m.toolCalls)
    (hresults : Answers results ((openCalls request history).map (·.call.id))) :
    Paired (history ++ results) := by
  rcases h with hpaired | ⟨earlier, m, before, answered, rfl, hearlier, hcalling, hanswers,
    hnodup, hsub⟩
  · rw [hpaired.openCalls_eq_nil] at hresults
    rwa [hresults.eq_nil, List.append_nil]
  · have hm : HasUniqueIds m.toolCalls := hunique m (List.mem_append_right _ List.mem_cons_self)
    -- the calls that have no result wait, so that a turn finds them open, and no others
    have hbefore : ∀ x ∈ before, isCalling x = false := by
      intro x hx
      refine Bool.eq_false_iff.mpr fun hx' => ?_
      exact Bool.eq_false_iff.mp (isResult_eq_false_of_isCalling hx') (hanswers.isResult x hx)
    have hawaits : Awaits (earlier ++ m :: before) (unanswered earlier.length m.toolCalls before) :=
      ⟨earlier, m, before, ⟨rfl, hcalling, hbefore⟩, hm, hanswers.isResult, rfl⟩
    rw [hawaits.openCalls_eq, List.map_map] at hresults
    have hall := (hanswers.append hresults).trans
      (hanswers.perm_append_unanswered hnodup hm hsub earlier.length)
    have hlast : Paired (m :: ((before ++ results) ++ [])) := .exchange hcalling hall .nil
    rw [List.append_nil] at hlast
    rw [List.append_assoc, List.cons_append]
    exact hearlier.append hlast

end Parley.Agent
