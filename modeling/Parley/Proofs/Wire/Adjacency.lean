import Parley.Proofs.Agent.Pairing
import Parley.Proofs.Agent.Sample
import Parley.Proofs.Wire.Dialogue

/-!
# Calls and their results in a dialogue

`results_behind_calls`: in what is sent for a paired history, each turn that calls tools is followed
by a turn of the user that begins with the results of these calls (`AnsweredBy`), under the names of
the calls.

The history is read from left to right, and `Settled` says of the turns so far that their calls are
answered.  A message that is neither a call nor a result may prolong the latest turn, but keeps it
settled (`Settled.pushed`).  Calls and their results only come together, and a whole exchange of
them keeps it too (`Settled.pushAll_exchange`).
-/

namespace Parley.Wire

open Agent (Answers Paired isCalling isResult)
open Agent.Sample (call calling)
open Chat (Message)

/-! ### Answered turns -/

/-- Whether a turn of the model, which calls tools, is answered by a turn of the user. -/
structure AnsweredBy (t u : Turn Entry) : Prop where
  /-- The model calls. -/
  calling : t.side = .model
  /-- The user answers. -/
  answering : u.side = .user
  /-- The ids of the calls differ. -/
  nodup : ((calledIn t.entries).map (·.1)).Nodup
  /-- In front stand the results of the calls, one for each, under their ids and names and in any
  order, and no result stands behind them. -/
  exists_results : ∃ results rest, u.entries = results ++ rest ∧
    (results.map Entry.answered?).Perm ((calledIn t.entries).map some) ∧
    ∀ e ∈ rest, e.answered? = none

/-- Whether each turn that calls tools is followed by one that answers it. -/
def CallsAnswered (turns : List (Turn Entry)) : Prop :=
  ∀ (earlier : List (Turn Entry)) (t : Turn Entry) (later : List (Turn Entry)),
    turns = earlier ++ t :: later → calledIn t.entries ≠ [] →
      ∃ u later', later = u :: later' ∧ AnsweredBy t u

/-- Whether the calls in turns, which are listed from the latest on, are answered. -/
inductive Settled : List (Turn Entry) → Prop where
  /-- There is no turn. -/
  | nil : Settled []
  /-- A turn that calls nothing. -/
  | plain {t : Turn Entry} {earlier : List (Turn Entry)} (calls : calledIn t.entries = [])
    (more : Settled earlier) : Settled (t :: earlier)
  /-- A turn that calls tools, and the one that answers it. -/
  | exchange {t u : Turn Entry} {earlier : List (Turn Entry)} (answered : AnsweredBy t u)
    (calls : calledIn u.entries = []) (more : Settled earlier) : Settled (u :: t :: earlier)

theorem Settled.exists_answeredBy {ts later earlier : List (Turn Entry)} {t : Turn Entry}
    (h : Settled ts) (hts : ts = later ++ t :: earlier) (hcalls : calledIn t.entries ≠ []) :
    ∃ later' u, later = later' ++ [u] ∧ AnsweredBy t u := by
  induction h generalizing later with
  | nil => simp at hts
  | plain calls _ ih =>
    cases later with
    | nil =>
      obtain ⟨rfl, -⟩ := List.cons.inj hts
      exact absurd calls hcalls
    | cons x later =>
      obtain ⟨later', u, rfl, hu⟩ := ih (List.cons.inj hts).2
      exact ⟨x :: later', u, rfl, hu⟩
  | exchange answered calls _ ih =>
    -- the turn that calls is the one that is answered, or stands behind both
    rcases later with _ | ⟨x, _ | ⟨y, later⟩⟩
    · obtain ⟨rfl, -⟩ := List.cons.inj hts
      exact absurd calls hcalls
    · obtain ⟨rfl, hearlier⟩ := List.cons.inj hts
      obtain ⟨rfl, -⟩ := List.cons.inj hearlier
      exact ⟨[], _, rfl, answered⟩
    · obtain ⟨later', u, rfl, hu⟩ := ih (List.cons.inj (List.cons.inj hts).2).2
      exact ⟨x :: y :: later', u, rfl, hu⟩

theorem Settled.callsAnswered {ts : List (Turn Entry)} (h : Settled ts) :
    CallsAnswered ts.reverse := by
  intro earlier t later hts hcalls
  have hsplit : ts = later.reverse ++ t :: earlier.reverse := by
    rw [← List.reverse_reverse ts, hts]
    simp
  obtain ⟨later', u, hlater, hu⟩ := h.exists_answeredBy hsplit hcalls
  have hlater' : later = u :: later'.reverse := by
    rw [← List.reverse_reverse later, hlater]
    simp
  exact ⟨u, later'.reverse, hlater', hu⟩

/-! ### Names -/

/-- Where the ids of calls differ, each finds its name, whatever was called before. -/
theorem calledName_append {called calls : List (String × String)} (hnodup : (calls.map (·.1)).Nodup)
    {id name : String} (h : (id, name) ∈ calls) : calledName (called ++ calls) id = name := by
  have hlookup : calls.reverse.lookup id = some name := by
    obtain ⟨before, behind, rfl⟩ := List.append_of_mem h
    rw [List.map_append, List.map_cons, List.nodup_middle, List.nodup_cons] at hnodup
    refine List.lookup_eq_some_iff.mpr ⟨behind.reverse, before.reverse, by simp, ?_⟩
    intro p hp
    -- another call of the same id would stand behind this one
    have hne : id ≠ p.1 := by
      rintro rfl
      refine hnodup.1 (List.mem_append_right _ (List.mem_map.mpr ⟨p, ?_, rfl⟩))
      exact List.mem_reverse.mp hp
    exact bne_iff_ne.mpr hne
  rw [calledName, List.reverse_append, List.lookup_append, hlookup]
  rfl

/-! ### Messages -/

variable {called : List (String × String)} {ts ts' : List (Turn Entry)} {t : Turn Entry}

theorem role_of_isCalling {m : Message} (h : isCalling m = true) : m.role = .assistant := by
  simp only [isCalling, Bool.and_eq_true, decide_eq_true_eq] at h
  exact h.1

theorem calledIn_entries_of_isCalling (called : List (String × String)) {m : Message}
    (h : isCalling m = true) :
    calledIn (entries called m) = m.toolCalls.map fun call => (call.id, call.name) := by
  rw [calledIn_entries, if_pos (role_of_isCalling h)]

theorem calledIn_entries_eq_nil {m : Message} (h : isCalling m = false) :
    calledIn (entries called m) = [] := by
  rw [calledIn_entries]
  split
  · rename_i hrole
    have hcalls : m.toolCalls = [] := by simpa [isCalling, hrole, Message.hasToolCalls] using h
    rw [hcalls, List.map_nil]
  · rfl

/-- A message that neither calls a tool nor is a result keeps turns settled. -/
theorem Settled.pushed (h : Settled ts) (hpushed : Pushed t ts ts')
    (hcalls : calledIn t.entries = []) (hresults : ∀ e ∈ t.entries, e.answered? = none) :
    Settled ts' := by
  cases hpushed with
  | silent => exact h
  | longer =>
    cases h with
    | plain calls more =>
      refine .plain ?_ more
      rw [calledIn_append, calls, hcalls]
      rfl
    | exchange answered calls more =>
      -- what is added stands behind the results
      obtain ⟨hcalling, hanswering, hnodup, results, rest, hentries, hperm, hrest⟩ := answered
      refine .exchange ⟨hcalling, hanswering, hnodup, results, rest ++ t.entries, ?_,
        hperm, ?_⟩ ?_ more
      · show _ ++ t.entries = _
        rw [← List.append_assoc, ← hentries]
      · exact List.forall_mem_append.mpr ⟨hrest, hresults⟩
      · rw [calledIn_append, calls, hcalls]
        rfl
  | fresh => exact .plain hcalls h

/-- Behind a message that calls tools, its calls are those of the latest turn, and the turns before
it are settled. -/
theorem Settled.pushed_calling {es : List Entry} (h : Settled ts)
    (hpushed : Pushed ⟨.model, es⟩ ts ts') (hcalls : calledIn es ≠ []) :
    ∃ es' earlier, ts' = ⟨.model, es'⟩ :: earlier ∧ calledIn es' = calledIn es ∧
    Settled earlier := by
  cases hpushed with
  | silent hes =>
    obtain rfl : es = [] := hes
    exact absurd rfl hcalls
  | longer =>
    cases h with
    | plain calls more =>
      refine ⟨_, _, rfl, ?_, more⟩
      rw [calledIn_append, calls]
      rfl
    | exchange answered _ _ => cases answered.answering
  | fresh => exact ⟨es, ts, rfl, rfl, h⟩

/-! ### Exchanges -/

/-- What a tool message says. -/
def resultOf (called : List (String × String)) (m : Message) : Entry :=
  let id := m.toolCallId?.getD ""
  .result id (calledName called id) m.text

theorem said_results {results : List Message} (h : ∀ r ∈ results, isResult r = true) :
    said called results = (results.map (resultOf called)).map fun e => ⟨.user, [e]⟩ := by
  induction results with
  | nil => rfl
  | cons r results ih =>
    obtain ⟨hr, hresults⟩ := List.forall_mem_cons.mp h
    have hrole : r.role = .tool := by simpa [isResult] using hr
    have hentries : entries called r = [resultOf called r] := by
      simp only [entries, hrole, resultOf]
    rw [said, hentries, hrole, show calledIn [resultOf called r] = [] from rfl, List.append_nil,
      ih hresults]
    rfl

/-- Results answer the calls with their ids, each under the name of its call. -/
theorem perm_answered? (called : List (String × String)) {calls : List (String × String)}
    {results : List Message} (hanswers : Answers results (calls.map (·.1)))
    (hnodup : (calls.map (·.1)).Nodup) :
    ((results.map (resultOf (called ++ calls))).map Entry.answered?).Perm (calls.map some) := by
  have hperm := hanswers.perm.map fun id? =>
    some (id?.getD "", calledName (called ++ calls) (id?.getD ""))
  have hcalls : ((calls.map (·.1)).map some).map (fun id? =>
      some (id?.getD "", calledName (called ++ calls) (id?.getD ""))) = calls.map some := by
    rw [List.map_map, List.map_map]
    refine List.map_congr_left fun call hcall => ?_
    show some (call.1, calledName (called ++ calls) call.1) = some call
    rw [calledName_append hnodup hcall]
  rw [hcalls, List.map_map] at hperm
  rw [List.map_map]
  exact hperm

/-- A message that calls tools and the results of its calls keep turns settled. -/
theorem Settled.pushAll_exchange {m : Message} {results : List Message} (h : Settled ts)
    (hcalling : isCalling m = true) (hanswers : Answers results (m.toolCalls.map (·.id)))
    (hunique : (m.toolCalls.map (·.id)).Nodup) :
    Settled (pushAll ts (said called (m :: results))) := by
  have hrole := role_of_isCalling hcalling
  have hcalls := calledIn_entries_of_isCalling called hcalling
  have hids : (calledIn (entries called m)).map (·.1) = m.toolCalls.map (·.id) := by
    rw [hcalls, List.map_map]
    rfl
  have hne : calledIn (entries called m) ≠ [] := by
    intro hnil
    rw [hcalls, List.map_eq_nil_iff] at hnil
    simp [isCalling, Message.hasToolCalls, hnil] at hcalling
  obtain ⟨es, earlier, hpush, hes, hearlier⟩ :=
    h.pushed_calling (pushed_push ts ⟨.model, entries called m⟩) hne
  rw [← hids] at hanswers hunique
  have hperm := perm_answered? called hanswers hunique
  -- there is a call, so there is a result, and the results make up a turn of their own
  obtain ⟨r, results, rfl⟩ : ∃ r rest, results = r :: rest := by
    refine List.exists_cons_of_ne_nil ?_
    rintro rfl
    exact hne (by simpa using hperm)
  have hturns : pushAll ts (said called (m :: r :: results))
      = ⟨.user, (r :: results).map (resultOf (called ++ calledIn (entries called m)))⟩
        :: ⟨.model, es⟩ :: earlier := by
    rw [said, hrole]
    show pushAll (push ts ⟨.model, entries called m⟩) _ = _
    rw [hpush, said_results hanswers.isResult, List.map_cons]
    exact pushAll_fresh (by simp)
  rw [hturns]
  refine .exchange ⟨rfl, rfl, ?_, _, [], (List.append_nil _).symm, ?_,
    List.forall_mem_nil _⟩ ?_ hearlier
  · rwa [hes]
  · rwa [hes]
  · simp [calledIn, resultOf, Entry.called?]

/-! ### Histories -/

theorem settled_pushAll {history : List Message} (h : Paired history)
    (hunique : ∀ m ∈ history, isCalling m = true → (m.toolCalls.map (·.id)).Nodup)
    (hts : Settled ts) :
    Settled (pushAll ts (said called history)) := by
  induction h generalizing ts called with
  | nil => exact hts
  | @plain m rest hcalling hresult _ ih =>
    have hrole : m.role ≠ .tool := by simpa [isResult] using hresult
    have hpushed := pushed_push ts ⟨Side.ofRole m.role, entries called m⟩
    refine ih (fun m' hm' => hunique m' (List.mem_cons_of_mem _ hm')) ?_
    exact hts.pushed hpushed (calledIn_entries_eq_nil hcalling) (answered?_of_mem_entries hrole)
  | @exchange m results rest hcalling answers _ ih =>
    have hm := hunique m List.mem_cons_self hcalling
    rw [← List.cons_append, said_append, pushAll, List.foldl_append]
    refine ih (fun m' hm' => hunique m' ?_) (hts.pushAll_exchange hcalling answers hm)
    exact List.mem_cons_of_mem _ (List.mem_append_right _ hm')

theorem paired_dropWhile {history : List Message} (h : Paired history) :
    Paired (history.dropWhile isSystem) := by
  induction h with
  | nil => exact .nil
  | @plain m rest hcalling hresult more ih =>
    rw [List.dropWhile_cons]
    split
    · exact ih
    · exact .plain hcalling hresult more
  | @exchange m results rest hcalling answers more _ =>
    have hsystem : isSystem m = false := by simp [isSystem, role_of_isCalling hcalling]
    rw [List.dropWhile_cons, hsystem]
    exact .exchange hcalling answers more

/-- **Results behind calls.**  When calls and results stand together in a history and the calls of
each message have ids of their own, calls and results stand together in the turns that are sent for
it in either format.  The same ids may be used for the calls of another message. -/
theorem results_behind_calls {history : List Message} (hpaired : Paired history)
    (hunique : ∀ m ∈ history, isCalling m = true → (m.toolCalls.map (·.id)).Nodup) :
    ∃ turns : List (Turn Entry),
      (Anthropic.messages history).2 =
        (if Anthropic.opensWithUser turns then [] else [Anthropic.placeholder])
          ++ turns.map Anthropic.turn ∧
      (Gemini.messages history).2 = turns.map Gemini.turn ∧
      turns.flatMap (·.entries) = (said [] (history.dropWhile isSystem)).flatMap (·.entries) ∧
      CallsAnswered turns := by
  refine ⟨dialogue history, ?_, ?_, entries_dialogue history, ?_⟩
  · rw [Anthropic.messages_eq]
  · rw [Gemini.messages_eq]
  · have hdrop : ∀ m ∈ history.dropWhile isSystem, isCalling m = true →
        (m.toolCalls.map (·.id)).Nodup := by
      intro m hm
      exact hunique m ((List.dropWhile_suffix isSystem).subset hm)
    exact (settled_pushAll (paired_dropWhile hpaired) hdrop .nil).callsAnswered

/-- The same id stands for calls of two tools. -/
def reusedId : List Message :=
  [.withText .assistant "Wait.", calling [call "c1" "ls", call "c2" "rm"], .tool "c2" "",
    .tool "c1" "[]", calling [call "c1" "rm"], .tool "c1" "", .withText .user "Thanks."]

theorem results_behind_calls_reusedId :
    Paired reusedId ∧
    (∀ m ∈ reusedId, isCalling m = true → (m.toolCalls.map (·.id)).Nodup) ∧
    ∃ turns : List (Turn Entry),
      (Anthropic.messages reusedId).2 =
        (if Anthropic.opensWithUser turns then [] else [Anthropic.placeholder])
          ++ turns.map Anthropic.turn ∧
      (Gemini.messages reusedId).2 = turns.map Gemini.turn ∧
      turns.flatMap (·.entries) = (said [] (reusedId.dropWhile isSystem)).flatMap (·.entries) ∧
      CallsAnswered turns := by
  have hpaired : Paired reusedId := by decide
  have hunique : ∀ m ∈ reusedId, isCalling m = true → (m.toolCalls.map (·.id)).Nodup := by decide
  exact ⟨hpaired, hunique, results_behind_calls hpaired hunique⟩

end Parley.Wire
